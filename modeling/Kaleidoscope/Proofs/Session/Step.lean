/-
  What a session makes of a construct, and of source texts.

  - `Session.Steady`: the invariant of sessions: the checker is sound, the builder is regular, and if
    functions are emitted, the builder knows the same functions as the checker;
  - `Session.handle`: what comes of a construct;
  - `Steady.handle_of_fault`, `Steady.handle_of_right`: a construct with a fault is reported, and
    nothing that is known changes; any other is accepted and written;
  - `Steady.handle_keeps`: what constructs without a fault keep of the builder is kept by all;
  - `Steady.follow_keeps`, `Steady.evaluate_keeps`: what every construct keeps is kept through source
    texts;
  - `Steady.follow`, `Steady.run`: the invariant holds after any source texts, and no turn breaks.
-/
import Kaleidoscope.Proofs.Ir.Accept
import Kaleidoscope.Proofs.Lockstep
import Kaleidoscope.Session

namespace Kaleidoscope

open Ir (Builder)

/-- **A construct is checked by its first fault.** -/
theorem Checker.lowerFresh_construct {checker : Checker} (h : checker.Sound) (c : Construct) :
    ∃ r checker', (c.toNode NodeId.first).1.lowerFresh backend checker = (r, checker') ∧
      checker'.Sound ∧
      Settles r (c.fault? checker.global?) checker.global? (c.next checker.global?)
        checker'.global? := by
  cases hbody : c.body? with
  | none =>
    obtain ⟨r, checker', hrun, hsound, -, hsettles⟩ := lowerFresh_prototype h NodeId.first c.proto
    refine ⟨r, checker', ?_, hsound, ?_⟩
    · rw [Construct.toNode_of_declaration hbody]
      exact hrun
    · rw [Construct.fault?_of_declaration hbody, Construct.next_of_declaration hbody]
      exact hsettles
  | some body =>
    have hwhole := body.whole_toTerm NodeId.first
    obtain ⟨r, checker', hrun, hsound, -, hsettles, -⟩ :=
      lowerFresh_function h (body.coherent c.proto NodeId.first) hwhole.ne_blank
    have hsettles := hsettles (Directory.not_givesUp_of_whole hwhole)
    refine ⟨r, checker', ?_, hsound, ?_⟩
    · rw [Construct.toNode_of_body hbody]
      exact hrun
    · rw [Construct.fault?_of_body hbody, Construct.next_of_body hbody]
      exact hsettles

namespace Session

/-- What comes of a construct. -/
def handle (s : Session) (c : Construct) : Turn := s.process c.kind (c.toNode NodeId.first).1

/-- What a right construct is written as, and the builder after it. -/
def emission (mode : EmitMode) (b : Builder) (c : Construct) : Emission × Builder :=
  match mode with
  | .tree => (.text (emitTree (c.toNode NodeId.first).1), b)
  | .ir => emitIr (c.toNode NodeId.first).1 b

/-- The builder after a right construct. -/
def advance (mode : EmitMode) (b : Builder) (c : Construct) : Builder :=
  match mode with
  | .tree => b
  | .ir => b.accept c

/-- The invariant of sessions in a mode. -/
structure Steady (s : Session) (mode : EmitMode) : Prop where
  emits : s.mode = mode
  checker : s.checker.Sound
  builder : s.builder.Regular
  agree : mode = .ir → Directory.Agrees Builder.Plain s.checker.global? s.builder.signature?

/-- The message and the output of a right construct. -/
def acceptance (c : Construct) (text : String) : List Event :=
  [.diagnostic ⟨.info, c.kind.message⟩, .output text]

theorem emit_eq (s : Session) (c : Construct) :
    s.emit (c.toNode NodeId.first).1 =
      ((emission s.mode s.builder c).1, { s with builder := (emission s.mode s.builder c).2 }) := by
  obtain ⟨mode, checker, b⟩ := s
  cases mode <;> rfl

/-! ## One construct -/

/-- A construct has the same first fault for the checker and for the builder. -/
theorem fault?_congr {G H : Directory} (h : Directory.Agrees Builder.Plain G H) {c : Construct}
    (hc : c.Named IsName) : c.fault? G = c.fault? H := by
  cases hbody : c.body? with
  | none =>
    rw [Construct.fault?_of_declaration hbody, Construct.fault?_of_declaration hbody]
    exact h.declarationFault? hc.plain
  | some body =>
    rw [Construct.fault?_of_body hbody, Construct.fault?_of_body hbody]
    exact h.definitionFault? hc.plain (hc.calls hbody NodeId.first)

theorem next_congr {G H : Directory} (h : Directory.Agrees Builder.Plain G H) (c : Construct) :
    Directory.Agrees Builder.Plain (c.next G) (c.next H) := by
  cases hbody : c.body? with
  | none =>
    rw [Construct.next_of_declaration hbody, Construct.next_of_declaration hbody]
    exact h.declare
  | some body =>
    rw [Construct.next_of_body hbody, Construct.next_of_body hbody]
    exact h.define

namespace Steady

theorem initial (mode : EmitMode) : (Session.initial mode).Steady mode where
  emits := rfl
  checker := Checker.Sound.initial
  builder := Builder.Regular.initial
  agree _ := agrees_initial

section
variable {s : Session} {mode : EmitMode} (h : s.Steady mode) {c : Construct}
  (hc : c.Named IsName)
include h hc

/-- A right construct is always written. -/
theorem emission (hfault : c.fault? s.checker.global? = none) :
    ∃ text, Session.emission mode s.builder c = (.text text, advance mode s.builder c) := by
  cases mode with
  | tree => exact ⟨_, rfl⟩
  | ir =>
    rw [fault?_congr (h.agree rfl) hc] at hfault
    obtain ⟨text, b', hlower, hwrite⟩ := h.builder.accept_eq hc hfault
    refine ⟨text, ?_⟩
    simp only [Session.emission, emitIr, hlower, hwrite, advance]

omit hc in
/-- **A construct with a fault is reported**, and nothing that is known changes. -/
theorem handle_of_fault {e : Error} (hfault : c.fault? s.checker.global? = some e) :
    ∃ checker, s.handle c = ⟨{ s with checker := checker }, [.ofError e], none⟩ ∧
      checker.Sound ∧ checker.global? = s.checker.global? := by
  obtain ⟨r, checker, hrun, hsound, hsettles⟩ := Checker.lowerFresh_construct h.checker c
  rw [hfault] at hsettles
  obtain ⟨rfl, hsame⟩ := hsettles
  refine ⟨checker, ?_, hsound, hsame⟩
  simp only [handle, process, hrun]

/-- **A construct without a fault is accepted and written.** -/
theorem handle_of_right (hfault : c.fault? s.checker.global? = none) :
    ∃ checker text,
      s.handle c = ⟨⟨mode, checker, advance mode s.builder c⟩, acceptance c text, none⟩ ∧
      Session.emission mode s.builder c = (.text text, advance mode s.builder c) ∧
      checker.Sound ∧ checker.global? = c.next s.checker.global? := by
  obtain ⟨r, checker, hrun, hsound, hsettles⟩ := Checker.lowerFresh_construct h.checker c
  obtain ⟨text, hemission⟩ := h.emission hc hfault
  rw [hfault] at hsettles
  obtain ⟨⟨v, rfl⟩, hnext⟩ := hsettles
  refine ⟨checker, text, ?_, hemission, hsound, hnext⟩
  simp only [handle, process, hrun, emit_eq, h.emits, hemission]
  rfl

/-- **A session stays steady**, and its turn does not break. -/
theorem handle : (s.handle c).session.Steady mode ∧ (s.handle c).broken = none := by
  cases hfault : c.fault? s.checker.global? with
  | some e =>
    obtain ⟨checker, hturn, hsound, hsame⟩ := h.handle_of_fault hfault
    rw [hturn]
    refine ⟨⟨h.emits, hsound, h.builder, fun hmode => ?_⟩, rfl⟩
    show Directory.Agrees Builder.Plain checker.global? s.builder.signature?
    rw [hsame]
    exact h.agree hmode
  | none =>
    obtain ⟨checker, text, hturn, -, hsound, hnext⟩ := h.handle_of_right hc hfault
    rw [hturn]
    refine ⟨?_, rfl⟩
    cases mode with
    | tree => exact ⟨rfl, hsound, h.builder, fun hir => by cases hir⟩
    | ir =>
      have hagree := h.agree rfl
      rw [fault?_congr hagree hc] at hfault
      refine ⟨rfl, hsound, h.builder.accept hc hfault, fun _ name hplain => ?_⟩
      show (checker.global? name).map _ = ((s.builder.accept c).signature? name).map _
      rw [hnext, h.builder.agrees_accept hc hfault name hplain]
      exact next_congr hagree c name hplain

end

/-- What a construct without a fault keeps of the builder is kept by any construct. -/
theorem handle_keeps {Q : Builder → Prop}
    (hkeeps : ∀ {b c}, b.Regular → c.Named IsName → c.fault? b.signature? = none → Q b →
      Q (b.accept c))
    {s : Session} {mode : EmitMode} {c : Construct} (h : s.Steady mode) (hc : c.Named IsName)
    (hs : Q s.builder) : Q (s.handle c).session.builder := by
  cases hfault : c.fault? s.checker.global? with
  | some e =>
    obtain ⟨checker, hturn, -⟩ := h.handle_of_fault hfault
    rw [hturn]
    exact hs
  | none =>
    obtain ⟨checker, text, hturn, -⟩ := h.handle_of_right hc hfault
    rw [hturn]
    show Q (advance mode s.builder c)
    cases mode with
    | tree => exact hs
    | ir =>
      rw [fault?_congr (h.agree rfl) hc] at hfault
      exact hkeeps h.builder hc hfault hs

end Steady

/-! ## Source texts -/

/-- The constructs among what the parser brings about are spelled as the lexer reads them. -/
def AllNamed (events : List Parser.Event) : Prop :=
  ∀ c, .construct c ∈ events → c.Named IsName

theorem allNamed_events (source : ByteArray) : AllNamed (Parser.ofBytes source).events.1 :=
  fun _ hc => Construct.Parsed.named ⟨source, hc⟩

namespace Steady
variable {s : Session} {mode : EmitMode}

theorem follow_construct (h : s.Steady mode) {c : Construct} (hc : c.Named IsName)
    (rest : List Parser.Event) :
    s.follow (.construct c :: rest) =
      { (s.handle c).session.follow rest with
        events := (s.handle c).events ++ ((s.handle c).session.follow rest).events } := by
  have hbroken : (s.process c.kind (c.toNode NodeId.first).1).broken = none := (h.handle hc).2
  simp only [Session.follow, hbroken]
  rfl

/-- What every construct keeps is kept through a source text, which leaves the session steady. -/
theorem follow_keeps {Q : Session → Prop}
    (hkeeps : ∀ {s c}, Steady s mode → c.Named IsName → Q s → Q (s.handle c).session)
    (h : s.Steady mode) (hs : Q s) {events : List Parser.Event} (hevents : AllNamed events) :
    Q (s.follow events).session ∧ (s.follow events).session.Steady mode ∧
      (s.follow events).broken = none := by
  induction events generalizing s with
  | nil => exact ⟨hs, h, rfl⟩
  | cons event rest ih =>
    have hrest : AllNamed rest := fun c hc => hevents c (List.mem_cons_of_mem _ hc)
    cases event with
    | report e => exact ih h hs hrest
    | construct c =>
      have hc := hevents c List.mem_cons_self
      rw [h.follow_construct hc]
      exact ih (h.handle hc).1 (hkeeps h hc hs) hrest

/-- **A session stays steady through a source text**, and no turn breaks. -/
theorem follow (h : s.Steady mode) {events : List Parser.Event} (hevents : AllNamed events) :
    (s.follow events).session.Steady mode ∧ (s.follow events).broken = none :=
  (follow_keeps (Q := fun _ => True) (fun _ _ _ => trivial) h trivial hevents).2

theorem follow_append (h : s.Steady mode) {first : List Parser.Event} (hfirst : AllNamed first)
    (rest : List Parser.Event) :
    (s.follow (first ++ rest)).session = ((s.follow first).session.follow rest).session := by
  induction first generalizing s with
  | nil => rfl
  | cons event first ih =>
    have hrest : AllNamed first := fun c hc => hfirst c (List.mem_cons_of_mem _ hc)
    cases event with
    | report e => exact ih h hrest
    | construct c =>
      have hc := hfirst c List.mem_cons_self
      rw [List.cons_append, h.follow_construct hc, h.follow_construct hc]
      exact ih (h.handle hc).1 hrest

end Steady

/-- What every construct keeps is kept through source texts, which leave the session steady. -/
theorem Steady.evaluate_keeps {mode : EmitMode} {Q : Session → Prop}
    (hkeeps : ∀ {s c}, Steady s mode → c.Named IsName → Q s → Q (s.handle c).session)
    {s : Session} (h : s.Steady mode) (hs : Q s) (sources : List ByteArray) :
    Q (sources.foldl (fun s source => (s.evaluate source).session) s) ∧
      (sources.foldl (fun s source => (s.evaluate source).session) s).Steady mode := by
  induction sources generalizing s with
  | nil => exact ⟨hs, h⟩
  | cons source rest ih =>
    obtain ⟨hs', h', -⟩ := follow_keeps hkeeps h hs (allNamed_events source)
    exact ih h' hs'

/-- The session after source texts, one after another. -/
def run (mode : EmitMode) (sources : List ByteArray) : Session :=
  sources.foldl (fun s source => (s.evaluate source).session) (initial mode)

/-- **A session is steady after any source texts.** -/
theorem Steady.run (mode : EmitMode) (sources : List ByteArray) :
    (Session.run mode sources).Steady mode :=
  (evaluate_keeps (Q := fun _ => True) (fun _ _ _ => trivial) (.initial mode) trivial sources).2

end Session

end Kaleidoscope
