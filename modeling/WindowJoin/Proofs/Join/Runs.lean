import Mathlib.Data.List.Induction
import WindowJoin.Join.Indexed

/-!
# Runs of a join

A run over a list of events is a run over its beginning and then one over the rest (`Join.run_append`);
in particular the last event of a run is a step of the join that the others have led to
(`Join.run_concat`). So what every step keeps holds after every run (`Join.run_keeps`), where what is
kept may speak of the events so far and of all that has come out.
-/

namespace WindowJoin

namespace Join

variable {rules : JoinRules} {join final : Join} {out : List JoinOutput}

theorem run_append (rules : JoinRules) (join : Join) (first second : List JoinEvent) :
    join.run? rules (first ++ second) =
      (join.run? rules first).bind fun before =>
        (before.1.run? rules second).map fun after => (after.1, before.2 ++ after.2) := by
  induction first generalizing join with
  | nil => simp [run?]
  | cons event rest ih =>
      rw [List.cons_append, run?, run?]
      cases join.step? rules event with
      | none => rfl
      | some result =>
          obtain ⟨next, out⟩ := result
          simp only [bind, Option.bind_some, ih]
          cases next.run? rules rest with
          | none => rfl
          | some before =>
              simp only [Option.bind_some]
              cases before.1.run? rules second with
              | none => rfl
              | some after => simp [List.append_assoc]

/-- A run goes on from where another has ended. -/
theorem run_trans {between : Join} {first second : List JoinEvent} {later : List JoinOutput}
    (hfirst : join.run? rules first = some (between, out))
    (hsecond : between.run? rules second = some (final, later)) :
    join.run? rules (first ++ second) = some (final, out ++ later) := by
  rw [run_append, hfirst, Option.bind_some, hsecond]
  rfl

theorem run_of_step {event : JoinEvent} (h : join.step? rules event = some (final, out)) :
    join.run? rules [event] = some (final, out) := by
  simp [run?, h]

/-- The last event of a run is a step of the join that the others have led to. -/
theorem run_concat {events : List JoinEvent} {event : JoinEvent}
    (h : join.run? rules (events ++ [event]) = some (final, out)) :
    ∃ between before come, join.run? rules events = some (between, before) ∧
      between.step? rules event = some (final, come) ∧ out = before ++ come := by
  rw [run_append, Option.bind_eq_some_iff] at h
  obtain ⟨⟨between, before⟩, hbefore, hlast⟩ := h
  obtain ⟨⟨after, come⟩, hcome, hfinal⟩ := Option.map_eq_some_iff.mp hlast
  cases hfinal
  refine ⟨between, before, come, hbefore, ?_, rfl⟩
  cases hstep : between.step? rules event with
  | none => simp [run?, hstep] at hcome
  | some result => simpa [run?, hstep, Prod.ext_iff] using hcome

/-- What holds before the first event and is kept by every step holds after every run. -/
theorem run_keeps (Kept : List JoinEvent → Join → List JoinOutput → Prop) (hstart : Kept [] join [])
    (hstep : ∀ events between before event next come,
      join.run? rules events = some (between, before) → Kept events between before →
      between.step? rules event = some (next, come) →
      Kept (events ++ [event]) next (before ++ come))
    {events : List JoinEvent} (h : join.run? rules events = some (final, out)) :
    Kept events final out := by
  induction events using List.reverseRecOn generalizing final out with
  | nil =>
      cases h
      exact hstart
  | append_singleton events event ih =>
      obtain ⟨between, before, come, hbefore, hlast, rfl⟩ := run_concat h
      exact hstep events between before event final come hbefore (ih hbefore) hlast

end Join

end WindowJoin
