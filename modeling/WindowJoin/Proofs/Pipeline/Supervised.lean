import WindowJoin.Pipeline.Supervision

/-!
# What supervision reports and stops

`Supervision.Reachable` lets any components come to their ends in any order and in any way;
supervision takes note of them in that order. `Supervision.History.reports_first_failure` is what can
be relied on at every moment: there is a result when all have come to their ends, it is the first
failure if there is one, and who is to stop follows from what has been noted so far.
-/

namespace WindowJoin

/-- Only a success is no failure. -/
theorem Ending.failure_eq_none {component : Component} {ending : Ending} :
    ending.failure? component = none ↔ ending = .succeeded := by
  cases ending <;> simp [failure?]

namespace Supervision

/-- Takes note of endings in turn. -/
def noteAll (supervision : Supervision) (endings : List (Component × Ending)) : Supervision :=
  endings.foldl (fun noting ended => noting.note ended.1 ended.2) supervision

/-- The failure of the first of these components that has failed. -/
def firstFailure? (endings : List (Component × Ending)) : Option Failure :=
  endings.findSome? fun ended => ended.2.failure? ended.1

variable {endings : List (Component × Ending)}

theorem first_failure_eq_none :
    firstFailure? endings = none ↔ ∀ ended ∈ endings, ended.2 = .succeeded := by
  simp [firstFailure?, List.findSome?_eq_none_iff, Ending.failure_eq_none]

/-- The first failure is that behind successes only. -/
theorem first_failure_of_split {before after : List (Component × Ending)} {component : Component}
    {ending : Ending} {failure : Failure} (hbefore : ∀ earlier ∈ before, earlier.2 = .succeeded)
    (hfailure : ending.failure? component = some failure) :
    firstFailure? (before ++ (component, ending) :: after) = some failure := by
  have hnone := first_failure_eq_none.mpr hbefore
  rw [firstFailure?] at hnone ⊢
  rw [List.findSome?_append, hnone, List.findSome?_cons, hfailure]
  rfl

theorem note_all_append (supervision : Supervision) (first second : List (Component × Ending)) :
    supervision.noteAll (first ++ second) = (supervision.noteAll first).noteAll second :=
  List.foldl_append

theorem note_all_running (supervision : Supervision) (endings : List (Component × Ending)) :
    (supervision.noteAll endings).running = supervision.running - endings.length := by
  induction endings generalizing supervision with
  | nil => rfl
  | cons ended rest ih =>
      rw [noteAll, List.foldl_cons]
      refine (ih _).trans ?_
      rw [List.length_cons, Nat.add_comm, Nat.sub_add_eq]
      rfl

/-- A failure that has been noted stays the first. -/
theorem note_all_failure (supervision : Supervision) (endings : List (Component × Ending)) :
    (supervision.noteAll endings).failure =
      (supervision.failure <|> firstFailure? endings) := by
  induction endings generalizing supervision with
  | nil => simp [noteAll, firstFailure?]
  | cons ended rest ih =>
      rw [noteAll, List.foldl_cons]
      refine (ih _).trans ?_
      rw [note, firstFailure?, firstFailure?, List.findSome?_cons]
      cases supervision.failure with
      | some failure => rfl
      | none => cases ended.2.failure? ended.1 <;> rfl

theorem note_all_stops_join (supervision : Supervision) (endings : List (Component × Ending)) :
    (supervision.noteAll endings).stopsJoin = true ↔ supervision.stopsJoin = true ∨
      ∃ ended ∈ endings, ended.2 ≠ .succeeded ∨ ended.1 = .join := by
  induction endings generalizing supervision with
  | nil => simp [noteAll]
  | cons ended rest ih =>
      rw [noteAll, List.foldl_cons]
      refine (ih _).trans ?_
      simp [note, or_assoc]

/-! ## Components that come to their ends -/

/-- Components under supervision. -/
structure History where
  supervision : Supervision
  /-- The components that have not come to their ends. -/
  working : List Component
  /-- The endings that have not been noted, in the order in which they came. -/
  pending : List (Component × Ending)
  /-- The endings that have been noted, in the order in which they came. -/
  noted : List (Component × Ending)

namespace History

/-- Supervision at its beginning. -/
def begin (components : List Component) : History :=
  ⟨.start components.length, components, [], []⟩

/-- What may happen next. -/
inductive Step (history : History) : History → Prop where
  /-- A component comes to its end. -/
  | ends {component : Component} (ending : Ending) : component ∈ history.working →
      Step history { history with
        working := history.working.erase component
        pending := history.pending ++ [(component, ending)] }
  /-- The oldest ending that has not been noted is noted. -/
  | note {component : Component} {ending : Ending} {rest : List (Component × Ending)} :
      history.pending = (component, ending) :: rest →
      Step history { history with
        supervision := history.supervision.note component ending
        pending := rest
        noted := history.noted ++ [(component, ending)] }

end History

/-- The histories that come about with these components. -/
inductive Reachable (components : List Component) : History → Prop where
  | start : Reachable components (.begin components)
  | step {history next : History} : Reachable components history → history.Step next →
      Reachable components next

namespace History

/-- Supervision knows the endings that it has noted, and no component is left out or counted twice. -/
structure Kept (components : List Component) (history : History) : Prop where
  knows : history.supervision = (Supervision.start components.length).noteAll history.noted
  counts : ((history.noted ++ history.pending).map Prod.fst ++ history.working).Perm components

variable {components : List Component} {history next : History}

theorem Kept.step (h : history.Kept components) (hstep : history.Step next) :
    next.Kept components := by
  obtain ⟨hknows, hcounts⟩ := h
  cases hstep with
  | @ends component ending hworking =>
      refine ⟨hknows, List.Perm.trans ?_ hcounts⟩
      rw [← List.append_assoc, List.map_append, List.append_assoc]
      exact (List.perm_cons_erase hworking).symm.append_left _
  | @note component ending rest hpending =>
      refine ⟨?_, ?_⟩
      · rw [hknows, note_all_append]
        rfl
      · rw [hpending] at hcounts
        rwa [List.append_assoc, List.singleton_append]

end History

theorem Reachable.kept {components : List Component} {history : History}
    (h : Reachable components history) : history.Kept components := by
  induction h with
  | start => exact ⟨rfl, .rfl⟩
  | step _ hstep ih => exact ih.step hstep

namespace History

variable {components : List Component} {history : History}

/-- What is still running has not been noted. -/
theorem Kept.running (h : history.Kept components) :
    history.supervision.running = history.pending.length + history.working.length := by
  have hlength := h.counts.length_eq
  simp only [List.length_append, List.length_map] at hlength
  rw [h.knows, note_all_running, start]
  dsimp only
  omega

theorem Kept.failure (h : history.Kept components) :
    history.supervision.failure = firstFailure? history.noted := by
  rw [h.knows, note_all_failure]
  rfl

/-- The result is that of the noted endings, and there is none before all have come to their ends. -/
theorem Kept.result (h : history.Kept components) : history.supervision.result? =
    if history.working = [] ∧ history.pending = [] then
      some ((firstFailure? history.noted).elim (.ok ()) .error)
    else none := by
  have hall : history.supervision.running = 0 ↔ history.working = [] ∧ history.pending = [] := by
    rw [h.running, Nat.add_eq_zero_iff, List.length_eq_zero_iff, List.length_eq_zero_iff, and_comm]
  rw [result?, h.failure]
  simp only [hall]

/-- There is a result once all components have come to their ends and this has been noted. The result
is a success if all have succeeded, and otherwise the failure of the first that has failed. Every
component is to stop from the first failure on; what comes before the join and the join itself are to
stop from then on, or from the end of the join on if this is earlier. So a join that has succeeded
does not stop what comes behind it. -/
theorem reports_first_failure (h : Reachable components history) :
    (history.supervision.result?.isSome = true ↔
        history.working = [] ∧ history.pending = []) ∧
      (∀ result, history.supervision.result? = some result →
        (history.noted.map Prod.fst).Perm components ∧
          (result = .ok () ↔ ∀ ended ∈ history.noted, ended.2 = .succeeded) ∧
          ∀ before component ending after failure,
            history.noted = before ++ (component, ending) :: after →
            (∀ earlier ∈ before, earlier.2 = .succeeded) →
            ending.failure? component = some failure → result = .error failure) ∧
      (history.supervision.stopsAll = true ↔ ∃ ended ∈ history.noted, ended.2 ≠ .succeeded) ∧
      (history.supervision.stopsJoin = true ↔
        ∃ ended ∈ history.noted, ended.2 ≠ .succeeded ∨ ended = (.join, .succeeded)) := by
  have hkept := h.kept
  refine ⟨?_, ?_, ?_, ?_⟩
  · rw [hkept.result]
    split
    next hall => exact iff_of_true rfl hall
    next hsome => exact iff_of_false (by simp) hsome
  · intro result hresult
    rw [hkept.result] at hresult
    split at hresult
    next hall =>
      obtain rfl := Option.some.inj hresult
      have hcounts := hkept.counts
      rw [hall.1, hall.2, List.append_nil, List.append_nil] at hcounts
      refine ⟨hcounts, ?_, ?_⟩
      · rw [← first_failure_eq_none]
        cases firstFailure? history.noted <;> simp
      · intro before component ending after failure hnoted hbefore hfailure
        rw [hnoted, first_failure_of_split hbefore hfailure]
        rfl
    next => cases hresult
  · rw [stopsAll, hkept.failure, Option.isSome_iff_ne_none, ne_eq, first_failure_eq_none]
    simp
  · rw [hkept.knows, note_all_stops_join]
    -- The join stops what is before it by its success, and any component by its failure.
    have hsplit (ended : Component × Ending) :
        (ended.2 ≠ .succeeded ∨ ended.1 = .join) ↔
          (ended.2 ≠ .succeeded ∨ ended = (.join, .succeeded)) := by
      obtain ⟨component, ending⟩ := ended
      by_cases hending : ending = .succeeded <;> simp [hending]
    simp [start, hsplit]

/-- The join succeeds first, which stops nothing behind it. Then billing fails and the fan-out breaks
off, and the task of a receiver is lost: the failure of billing is the result. -/
theorem reports_first_failure_sample :
    let receiver : Component := .receiver "interactions" "0"
    let noted : List (Component × Ending) := [(.join, .succeeded),
      (.billing, .failed (.storage (.task "full"))), (.fanOut, .panicked), (receiver, .lost "gone")]
    (∃ joined, Reachable [receiver, .join, .fanOut, .billing] joined ∧
        joined.noted = noted.take 1 ∧ joined.supervision.stopsJoin = true ∧
        joined.supervision.stopsAll = false) ∧
      ∃ history, Reachable [receiver, .join, .fanOut, .billing] history ∧
        history.noted = noted ∧
        history.supervision.result? = some (.error (.storage (.task "full"))) := by
  intro receiver noted
  have hstart : Reachable [receiver, .join, .fanOut, .billing] _ := .start
  have hjoined := (hstart.step (@Step.ends _ .join .succeeded (by decide))).step (.note rfl)
  obtain ⟨-, -, hall, hjoin⟩ := reports_first_failure hjoined
  have hbilled := (hjoined.step (@Step.ends _ .billing (.failed (.storage (.task "full")))
    (by decide))).step (@Step.ends _ .fanOut .panicked (by decide))
  have hlost := (hbilled.step (.note rfl)).step (@Step.ends _ receiver (.lost "gone") (by decide))
  have hended := (hlost.step (.note rfl)).step (.note rfl)
  obtain ⟨hdone, hresult, -⟩ := reports_first_failure hended
  obtain ⟨result, hsome⟩ := Option.isSome_iff_exists.mp (hdone.mpr ⟨by decide, rfl⟩)
  have hfirst := (hresult result hsome).2.2 (noted.take 1) .billing _ (noted.drop 2) _ rfl
    (by decide) rfl
  refine ⟨⟨_, hjoined, rfl, hjoin.mpr ⟨_, List.mem_cons_self, .inr rfl⟩, ?_⟩, _, hended, rfl,
    hfirst ▸ hsome⟩
  rw [← Bool.not_eq_true, hall]
  decide

end History

end Supervision

end WindowJoin
