/-
  A construct that is rejected leaves no trace.

  - `Event.isError`, `Event.diagnostic?`, `Event.text?`: the messages of errors, the messages, and the
    lines of output;
  - `Session.kept`: the constructs of a run that are not answered with an error;
  - `Session.AcceptsAll`: every construct of a run is accepted and written;
  - `Session.Alike`: sessions that know the same, and have the same module;
  - `kept_leaves_same`: a run of the constructs that were kept ends like the run of all of them.
-/
import Kaleidoscope.Proofs.Session.Step

namespace Kaleidoscope.Session

/-- The message of an error. -/
def Event.isError : Event → Bool
  | .diagnostic d => d.severity = .error
  | .output _ => false

/-- A message. -/
def Event.diagnostic? : Event → Option Diagnostic
  | .diagnostic d => some d
  | .output _ => none

/-- A line of output. -/
def Event.text? : Event → Option String
  | .diagnostic _ => none
  | .output text => some text

/-- The messages. -/
def Turn.diagnostics (t : Turn) : List Diagnostic := t.events.filterMap Event.diagnostic?

/-- The lines of output. -/
def Turn.output (t : Turn) : List String := t.events.filterMap Event.text?

/-- What comes of constructs, one after another. -/
def handleAll (s : Session) (cs : List Construct) : Turn := s.follow (cs.map .construct)

/-- The constructs that are not answered with an error, when all are handled in order. -/
def kept (s : Session) : List Construct → List Construct
  | [] => []
  | c :: rest =>
    let turn := s.handle c
    if turn.events.any Event.isError then turn.session.kept rest else c :: turn.session.kept rest

/-- Every construct is accepted and written, when all are handled in order. -/
def AcceptsAll (s : Session) : List Construct → Prop
  | [] => True
  | c :: rest =>
    (∃ text, (s.handle c).events = acceptance c text) ∧ (s.handle c).broken = none ∧
      (s.handle c).session.AcceptsAll rest

/-- The sessions know the same, and have the same module. -/
structure Alike (s t : Session) : Prop where
  known : s.checker.global? = t.checker.global?
  builder : s.builder = t.builder

/-! ## One construct -/

theorem isError_ofError {e : Error} (h : e.isMistake = true) : (Event.ofError e).isError = true := by
  simp [Event.isError, Event.ofError, Diagnostic.ofError, Severity.ofError, h]

section
variable {s t : Session} {mode : EmitMode} (hs : s.Steady mode) (ht : t.Steady mode)
  (h : s.Alike t) {c : Construct}
include hs h

/-- A construct with a fault is answered with an error, and the session stays alike to what it was
alike to. -/
theorem Alike.handle_of_fault {e : Error} (hfault : c.fault? s.checker.global? = some e) :
    (s.handle c).events.any Event.isError = true ∧ (s.handle c).output = [] ∧
      (s.handle c).session.Alike t := by
  obtain ⟨checker, hturn, -, hsame⟩ := hs.handle_of_fault hfault
  rw [hturn]
  refine ⟨?_, rfl, hsame.trans h.known, h.builder⟩
  simp [isError_ofError (Construct.isMistake_of_fault? hfault)]

include ht

/-- A construct without a fault is accepted by sessions that are alike, with the same output, and
they stay alike. -/
theorem Alike.handle_of_right (hc : c.Named IsName) (hfault : c.fault? s.checker.global? = none) :
    ∃ text, (s.handle c).events = acceptance c text ∧ (t.handle c).events = acceptance c text ∧
      (s.handle c).session.Alike (t.handle c).session := by
  have hfault' : c.fault? t.checker.global? = none := h.known ▸ hfault
  obtain ⟨checker, text, hturn, hemission, -, hnext⟩ := hs.handle_of_right hc hfault
  obtain ⟨checker', text', hturn', hemission', -, hnext'⟩ := ht.handle_of_right hc hfault'
  have htext : text' = text := by
    rw [h.builder, hemission'] at hemission
    injection hemission with hemission _
    injection hemission
  subst htext
  refine ⟨text', ?_, ?_, ?_⟩
  · rw [hturn]
  · rw [hturn']
  · rw [hturn, hturn']
    refine ⟨?_, ?_⟩
    · show checker.global? = checker'.global?
      rw [hnext, hnext', h.known]
    · show advance mode s.builder c = advance mode t.builder c
      rw [h.builder]

end

/-! ## Runs -/

theorem handleAll_cons {s : Session} {mode : EmitMode} (h : s.Steady mode) {c : Construct}
    (hc : c.Named IsName) (rest : List Construct) :
    s.handleAll (c :: rest) =
      { (s.handle c).session.handleAll rest with
        events := (s.handle c).events ++ ((s.handle c).session.handleAll rest).events } :=
  h.follow_construct hc _

theorem output_handleAll_cons {s : Session} {mode : EmitMode} (h : s.Steady mode) {c : Construct}
    (hc : c.Named IsName) (rest : List Construct) :
    (s.handleAll (c :: rest)).output =
      (s.handle c).output ++ ((s.handle c).session.handleAll rest).output := by
  rw [handleAll_cons h hc, Turn.output, Turn.output, Turn.output, List.filterMap_append]

/-- From sessions that are alike, one that handles all constructs and one that handles those that
the first one keeps end alike, with the same output. -/
theorem Alike.kept {s t : Session} {mode : EmitMode} (hs : s.Steady mode) (ht : t.Steady mode)
    (h : s.Alike t) {cs : List Construct} (hcs : ∀ c ∈ cs, c.Named IsName) :
    t.AcceptsAll (s.kept cs) ∧
      (s.handleAll cs).session.Alike (t.handleAll (s.kept cs)).session ∧
      (s.handleAll cs).output = (t.handleAll (s.kept cs)).output := by
  induction cs generalizing s t with
  | nil => exact ⟨trivial, h, rfl⟩
  | cons c rest ih =>
    have hc := hcs c List.mem_cons_self
    have hrest : ∀ c ∈ rest, c.Named IsName := fun c hc => hcs c (List.mem_cons_of_mem _ hc)
    have hs' := (hs.handle hc).1
    rw [output_handleAll_cons hs hc, handleAll_cons hs hc]
    cases hfault : c.fault? s.checker.global? with
    | some e =>
      -- only the session that handles all constructs sees this one
      obtain ⟨herror, hnone, halike⟩ := h.handle_of_fault hs hfault
      obtain ⟨haccepts, hend, houtput⟩ := ih hs' ht halike hrest
      simp only [Session.kept, herror, if_true, hnone, List.nil_append]
      exact ⟨haccepts, hend, houtput⟩
    | none =>
      obtain ⟨text, hevents, hevents', halike⟩ := h.handle_of_right hs ht hc hfault
      have ht' := ht.handle hc
      obtain ⟨haccepts, hend, houtput⟩ := ih hs' ht'.1 halike hrest
      have hkept : s.kept (c :: rest) = c :: (s.handle c).session.kept rest := by
        have hclean : (s.handle c).events.any Event.isError = false := by rw [hevents]; rfl
        simp only [Session.kept, hclean, Bool.false_eq_true, if_false]
      have hsame : (s.handle c).output = (t.handle c).output := by
        rw [Turn.output, Turn.output, hevents, hevents']
      rw [hkept, output_handleAll_cons ht hc, handleAll_cons ht hc, hsame, houtput]
      exact ⟨⟨⟨text, hevents'⟩, ht'.2, haccepts⟩, hend, rfl⟩

theorem kept_subset (s : Session) (cs : List Construct) : s.kept cs ⊆ cs := by
  induction cs generalizing s with
  | nil => exact List.Subset.refl _
  | cons c rest ih =>
    simp only [Session.kept]
    split
    · exact List.subset_cons_of_subset c (ih _)
    · exact List.cons_subset_cons c (ih _)

theorem broken_handleAll {s : Session} {mode : EmitMode} (h : s.Steady mode) {cs : List Construct}
    (hcs : ∀ c ∈ cs, c.Named IsName) : (s.handleAll cs).broken = none := by
  refine (h.follow fun c hc => ?_).2
  obtain ⟨c', hmem, heq⟩ := List.mem_map.1 hc
  injection heq with heq
  exact heq ▸ hcs c' hmem

/-- **Rejected constructs leave no trace.** Of constructs that the parser delivers, those that are
not answered with an error are all accepted when they are handled alone, and then everything that is
known, the module, and the output are the same as when all are handled. -/
theorem kept_leaves_same (mode : EmitMode) {cs : List Construct} (hcs : ∀ c ∈ cs, c.Parsed) :
    (initial mode).AcceptsAll ((initial mode).kept cs) ∧
      let all := (initial mode).handleAll cs
      let alone := (initial mode).handleAll ((initial mode).kept cs)
      all.broken = none ∧ alone.broken = none ∧
        (∀ name, alone.session.checker.global? name = all.session.checker.global? name) ∧
        alone.session.builder = all.session.builder ∧ alone.output = all.output := by
  have hnamed : ∀ c ∈ cs, c.Named IsName := fun c hc => (hcs c hc).named
  have hsteady := Steady.initial mode
  obtain ⟨haccepts, hend, houtput⟩ := Alike.kept hsteady hsteady ⟨rfl, rfl⟩ hnamed
  refine ⟨haccepts, broken_handleAll hsteady hnamed,
    broken_handleAll hsteady fun c hc => hnamed c (kept_subset _ cs hc), fun name => ?_,
    hend.builder.symm, houtput.symm⟩
  rw [hend.known]

/-- Two definitions of one function, of which the first has a stray variable. -/
def twoAttempts : List Construct :=
  [.definition ⟨"f", ["x"]⟩ (.identifier "y"), .definition ⟨"f", ["x"]⟩ (.identifier "x")]

theorem twoAttempts_parsed : ∀ c ∈ twoAttempts, c.Parsed := by
  have hevents : (Parser.ofBytes "def f(x) y def f(x) x".toUTF8).events.1 =
      twoAttempts.map .construct := by
    decide +kernel
  intro c hc
  refine ⟨"def f(x) y def f(x) x".toUTF8, ?_⟩
  rw [hevents]
  exact List.mem_map_of_mem hc

/-- The second attempt alone leaves the session as both do. -/
theorem kept_twoAttempts :
    (initial .ir).kept twoAttempts = twoAttempts.drop 1 ∧
      ((initial .ir).handleAll (twoAttempts.drop 1)).session.builder =
        ((initial .ir).handleAll twoAttempts).session.builder := by
  have hfirst : ((initial .ir).handle (.definition ⟨"f", ["x"]⟩ (.identifier "y"))).events.any
      Event.isError = true := by decide +kernel
  have hsecond : (((initial .ir).handle (.definition ⟨"f", ["x"]⟩ (.identifier "y"))).session.handle
      (.definition ⟨"f", ["x"]⟩ (.identifier "x"))).events.any Event.isError = false := by
    decide +kernel
  have hkept : (initial .ir).kept twoAttempts = twoAttempts.drop 1 := by
    simp only [twoAttempts, kept, hfirst, hsecond, if_true, Bool.false_eq_true, if_false,
      List.drop_succ_cons, List.drop_zero]
  obtain ⟨-, -, -, -, hbuilder, -⟩ := kept_leaves_same .ir twoAttempts_parsed
  rw [hkept] at hbuilder
  exact ⟨hkept, hbuilder⟩

end Kaleidoscope.Session
