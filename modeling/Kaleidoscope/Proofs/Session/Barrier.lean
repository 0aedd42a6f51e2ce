/-
  Source texts with a semicolon on a line of its own between them.

  - `Event.outline`: an event without the text of its message;
  - `Turn.Like`: turns that end in the same session, and whose events have the same outline;
  - `follow_like`: a turn depends on what comes of the attempts at constructs; where one fails, it
    does not matter why;
  - `Steady.events_follow_append`: the events of pieces, one after another;
  - `evaluate_barrier`: two source texts come to the same as one, if it has the first before such a
    semicolon and the second after it.
-/
import Kaleidoscope.Proofs.Parser.Barrier
import Kaleidoscope.Proofs.Session.Rejection

namespace Kaleidoscope.Session

/-- How bad the messages are, in order. -/
def Turn.severities (t : Turn) : List Severity := t.diagnostics.map (·.severity)

/-- An event without the text of its message. -/
def Event.outline : Event → Severity ⊕ String
  | .diagnostic d => .inl d.severity
  | .output text => .inr text

/-- The turns end in the same session, and their events have the same outline. -/
structure Turn.Like (t u : Turn) : Prop where
  session : t.session = u.session
  broken : t.broken = u.broken
  outline : t.events.map Event.outline = u.events.map Event.outline

theorem Turn.output_eq (t : Turn) :
    t.output = (t.events.map Event.outline).filterMap Sum.getRight? := by
  rw [Turn.output, List.filterMap_map]
  congr 1
  funext event
  cases event <;> rfl

theorem Turn.severities_eq (t : Turn) :
    t.severities = (t.events.map Event.outline).filterMap Sum.getLeft? := by
  rw [Turn.severities, Turn.diagnostics, List.map_filterMap, List.filterMap_map]
  congr 1
  funext event
  cases event <;> rfl

/-- **A turn depends on what comes of the attempts at constructs.** -/
theorem follow_like (s : Session) {events events' : List Parser.Event}
    (h : events'.map Parser.Event.construct? = events.map Parser.Event.construct?) :
    (s.follow events').Like (s.follow events) := by
  induction events generalizing s events' with
  | nil =>
    rw [List.map_eq_nil_iff.1 h]
    exact ⟨rfl, rfl, rfl⟩
  | cons event events ih =>
    obtain ⟨event', events', rfl, hevent, htail⟩ := List.map_eq_cons_iff.1 h
    cases event with
    | report e =>
      cases event' with
      | construct c => cases hevent
      | report e' =>
        obtain ⟨hsession, hbroken, houtline⟩ := ih s htail
        exact ⟨hsession, hbroken, congrArg (List.cons (Sum.inl Severity.error)) houtline⟩
    | construct c =>
      cases event' with
      | report e => cases hevent
      | construct c' =>
        cases hevent
        simp only [follow]
        split
        · exact ⟨rfl, rfl, rfl⟩
        · obtain ⟨hsession, hbroken, houtline⟩ := ih (s.handle c).session htail
          refine ⟨hsession, hbroken, ?_⟩
          rw [List.map_append, List.map_append]
          exact congrArg _ houtline

theorem Steady.events_follow_append {s : Session} {mode : EmitMode} (h : s.Steady mode)
    {first : List Parser.Event} (hfirst : AllNamed first) (rest : List Parser.Event) :
    (s.follow (first ++ rest)).events =
      (s.follow first).events ++ ((s.follow first).session.follow rest).events := by
  induction first generalizing s with
  | nil => rfl
  | cons event first ih =>
    have hrest : AllNamed first := fun c hc => hfirst c (List.mem_cons_of_mem _ hc)
    cases event with
    | report e => exact congrArg _ (ih h hrest)
    | construct c =>
      have hc := hfirst c List.mem_cons_self
      rw [List.cons_append, h.follow_construct hc, h.follow_construct hc, List.append_assoc]
      exact congrArg _ (ih (h.handle hc).1 hrest)

/-- **A semicolon on a line of its own is a barrier.** After any source texts, take two more, of
any bytes. To evaluate one after the other, or both at once with such a semicolon between them, ends
in the same session, with the same output, and with as many messages that are as bad, in the same
order. -/
theorem evaluate_barrier (mode : EmitMode) (sources : List ByteArray) (first second : ByteArray) :
    let s := run mode sources
    let one := s.evaluate first
    let two := one.session.evaluate second
    let both := s.evaluate (first ++ "\n;\n".toUTF8 ++ second)
    (one.broken = none ∧ two.broken = none ∧ both.broken = none) ∧
      both.session = two.session ∧ both.output = one.output ++ two.output ∧
      both.severities = one.severities ++ two.severities := by
  intro s one two both
  have hs := Steady.run mode sources
  have hone := hs.follow (allNamed_events first)
  have hlike : both.Like (s.follow _) := follow_like s (by
    rw [List.map_append]
    exact Parser.outcomes_ofBytes_barrier first second)
  have houtline : both.events.map Event.outline =
      one.events.map Event.outline ++ two.events.map Event.outline := by
    rw [hlike.outline, hs.events_follow_append (allNamed_events first), List.map_append]
    rfl
  refine ⟨⟨hone.2, (hone.1.follow (allNamed_events second)).2,
    (hs.follow (allNamed_events _)).2⟩, ?_, ?_, ?_⟩
  · exact hlike.session.trans (hs.follow_append (allNamed_events first) _)
  · rw [Turn.output_eq, Turn.output_eq, Turn.output_eq, houtline, List.filterMap_append]
  · rw [Turn.severities_eq, Turn.severities_eq, Turn.severities_eq, houtline,
      List.filterMap_append]

end Kaleidoscope.Session
