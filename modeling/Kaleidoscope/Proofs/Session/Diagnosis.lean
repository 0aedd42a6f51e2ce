/-
  The messages of a session.

  - `Construct.verdict`, `Construct.known`: the message that a construct deserves where certain
    functions are known, and what is known after it;
  - `judge`: the messages about a source text, and what is known after it. Emitting has no part in
    it;
  - `Steady.follow_judges`: a session in any mode gives these messages;
  - `Regular.write`, `Regular.writeModule`: every function of a regular builder, and its module, can
    be written;
  - `modes_diagnose_alike`: the mode makes no difference to the messages, none of which is fatal, and
    writing never fails.
-/
import Kaleidoscope.Proofs.Session.Rejection

namespace Kaleidoscope

/-! ## What a source text deserves -/

/-- The message that a construct deserves. -/
def Construct.verdict (G : Directory) (c : Construct) : Diagnostic :=
  match c.fault? G with
  | some e => .ofError e
  | none => ⟨.info, c.kind.message⟩

/-- What is known after a construct. One with a fault adds nothing. -/
def Construct.known (G : Directory) (c : Construct) : Directory :=
  match c.fault? G with
  | some _ => G
  | none => c.next G

theorem Construct.verdict_not_fatal (G : Directory) (c : Construct) :
    (c.verdict G).severity ≠ .fatal := by
  unfold verdict
  split
  · rename_i e hfault
    simp [Diagnostic.ofError, Severity.ofError, Construct.isMistake_of_fault? hfault]
  · simp

/-- The messages about what the parser brings about, and what is known after it. -/
def judge (G : Directory) : List Parser.Event → List Diagnostic × Directory
  | [] => ([], G)
  | .report e :: rest => (⟨.error, e.message⟩ :: (judge G rest).1, (judge G rest).2)
  | .construct c :: rest =>
    (c.verdict G :: (judge (c.known G) rest).1, (judge (c.known G) rest).2)

theorem judge_not_fatal (G : Directory) (events : List Parser.Event) :
    ∀ d ∈ (judge G events).1, d.severity ≠ .fatal := by
  induction events generalizing G with
  | nil => exact List.forall_mem_nil _
  | cons event events ih =>
    cases event with
    | report e => exact List.forall_mem_cons.2 ⟨by simp, ih G⟩
    | construct c => exact List.forall_mem_cons.2 ⟨c.verdict_not_fatal G, ih (c.known G)⟩

namespace Session

/-! ## What a session says -/

namespace Steady
variable {s : Session} {mode : EmitMode}

theorem handle_judges (h : s.Steady mode) {c : Construct} (hc : c.Named IsName) :
    (s.handle c).diagnostics = [c.verdict s.checker.global?] ∧
      (s.handle c).session.checker.global? = c.known s.checker.global? := by
  unfold Construct.verdict Construct.known
  cases hfault : c.fault? s.checker.global? with
  | some e =>
    obtain ⟨checker, hturn, -, hsame⟩ := h.handle_of_fault hfault
    rw [hturn]
    exact ⟨rfl, hsame⟩
  | none =>
    obtain ⟨checker, text, hturn, -, -, hnext⟩ := h.handle_of_right hc hfault
    rw [hturn]
    exact ⟨rfl, hnext⟩

/-- **A session says what its source texts deserve**, whatever it emits. -/
theorem follow_judges (h : s.Steady mode) {events : List Parser.Event} (hevents : AllNamed events) :
    (s.follow events).diagnostics = (judge s.checker.global? events).1 ∧
      (s.follow events).session.checker.global? = (judge s.checker.global? events).2 := by
  induction events generalizing s with
  | nil => exact ⟨rfl, rfl⟩
  | cons event events ih =>
    have hrest : AllNamed events := fun c hc => hevents c (List.mem_cons_of_mem _ hc)
    cases event with
    | report e =>
      obtain ⟨hsaid, hknown⟩ := ih h hrest
      exact ⟨congrArg _ hsaid, hknown⟩
    | construct c =>
      have hc := hevents c List.mem_cons_self
      obtain ⟨hverdict, hnext⟩ := h.handle_judges hc
      obtain ⟨hsaid, hknown⟩ := ih (h.handle hc).1 hrest
      rw [hnext] at hsaid hknown
      rw [h.follow_construct hc]
      refine ⟨?_, hknown⟩
      rw [Turn.diagnostics, List.filterMap_append]
      show (s.handle c).diagnostics ++ _ = _
      rw [hverdict]
      exact congrArg _ hsaid

end Steady

/-- What comes of source texts, one after another. -/
def turns (s : Session) : List ByteArray → List Turn
  | [] => []
  | source :: rest => s.evaluate source :: (s.evaluate source).session.turns rest

/-- Sessions that know the same say the same, in whatever modes they are. -/
theorem diagnostics_turns_eq {s t : Session} {mode mode' : EmitMode} (hs : s.Steady mode)
    (ht : t.Steady mode') (h : s.checker.global? = t.checker.global?) (sources : List ByteArray) :
    (s.turns sources).map Turn.diagnostics = (t.turns sources).map Turn.diagnostics := by
  induction sources generalizing s t with
  | nil => rfl
  | cons source sources ih =>
    have hnamed := allNamed_events source
    obtain ⟨hsaid, hknown⟩ := hs.follow_judges hnamed
    obtain ⟨hsaid', hknown'⟩ := ht.follow_judges hnamed
    rw [← h] at hsaid' hknown'
    have hrest := ih (hs.follow hnamed).1 (ht.follow hnamed).1 (hknown.trans hknown'.symm)
    exact List.cons_eq_cons.2 ⟨hsaid.trans hsaid'.symm, hrest⟩

/-- No turn breaks, and no message is fatal. -/
theorem Steady.turns_not_fatal {s : Session} {mode : EmitMode} (h : s.Steady mode)
    (sources : List ByteArray) :
    ∀ turn ∈ s.turns sources, turn.broken = none ∧ ∀ d ∈ turn.diagnostics, d.severity ≠ .fatal := by
  induction sources generalizing s with
  | nil => exact List.forall_mem_nil _
  | cons source sources ih =>
    have hnamed := allNamed_events source
    obtain ⟨hsteady, hbroken⟩ := h.follow hnamed
    refine List.forall_mem_cons.2 ⟨⟨hbroken, ?_⟩, ih hsteady⟩
    rw [show (s.evaluate source).diagnostics = _ from (h.follow_judges hnamed).1]
    exact judge_not_fatal _ _

end Session

/-! ## Writing -/

namespace Ir.Builder.Regular

theorem write {b : Builder} (h : b.Regular) (serial : Nat) :
    ∃ text b', b.write serial = (.ok text, b') ∧ b'.Regular := by
  cases hf : b.function? serial with
  | none => exact ⟨"", b, by simp only [Builder.write, hf], h⟩
  | some f =>
    have hcomplete := h.complete hf
    obtain ⟨text, hwrite⟩ := write_of_complete hf hcomplete
    refine ⟨text, _, hwrite, h.put hf rfl rfl hcomplete.numbered fun hadded => ?_⟩
    exact (h.correct hadded hf).numbered

theorem writeEntries {b : Builder} (h : b.Regular) (entries : List Entry) :
    ∃ texts b', b.writeEntries entries = (.ok texts, b') ∧ b'.Regular := by
  induction entries generalizing b with
  | nil => exact ⟨[], b, rfl, h⟩
  | cons entry entries ih =>
    have hentry : ∃ text b', b.writeEntry entry = (.ok text, b') ∧ b'.Regular := by
      cases entry with
      | function serial => exact h.write serial
      | library f => exact ⟨_, b, rfl, h⟩
    obtain ⟨text, b', hfirst, h'⟩ := hentry
    obtain ⟨texts, b'', hrest, h''⟩ := ih h'
    exact ⟨text :: texts, b'', by simp only [Builder.writeEntries, hfirst, hrest], h''⟩

/-- **The module of a regular builder can be written**, and leaves it regular. -/
theorem writeModule {b : Builder} (h : b.Regular) :
    ∃ text b', b.writeModule = (.ok text, b') ∧ b'.Regular := by
  obtain ⟨texts, b', hwrite, h'⟩ := h.writeEntries b.entries
  exact ⟨_, b', by simp only [Builder.writeModule, hwrite]; rfl, h'⟩

end Ir.Builder.Regular

namespace Session

/-- **The mode makes no difference to the messages, and source texts alone cause no failure.** For
any source texts, of any bytes, a session that emits functions and one that emits trees give the same
messages for each of them. No message is fatal, and no turn breaks. At the end every function that
was ever created, and the whole module, can be written. -/
theorem modes_diagnose_alike (sources : List ByteArray) :
    ((initial .ir).turns sources).map Turn.diagnostics =
        ((initial .tree).turns sources).map Turn.diagnostics ∧
      ∀ mode, (∀ turn ∈ (initial mode).turns sources,
          turn.broken = none ∧ ∀ d ∈ turn.diagnostics, d.severity ≠ .fatal) ∧
        (∀ serial f, (run mode sources).builder.function? serial = some f →
          ∃ text, ((run mode sources).builder.write serial).1 = .ok text) ∧
        ∃ text, (run mode sources).writeModule.1 = .ok text := by
  refine ⟨diagnostics_turns_eq (.initial .ir) (.initial .tree) rfl sources, fun mode => ?_⟩
  have hregular := (Steady.run mode sources).builder
  refine ⟨(Steady.initial mode).turns_not_fatal sources, fun serial f _ => ?_, ?_⟩
  · obtain ⟨text, b, hwrite, -⟩ := hregular.write serial
    exact ⟨text, by rw [hwrite]⟩
  · obtain ⟨text, b, hwrite, -⟩ := hregular.writeModule
    exact ⟨text, by simp only [Session.writeModule, hwrite]⟩

end Session

end Kaleidoscope
