import WindowJoin.Proofs.Join.Holding
import WindowJoin.Proofs.Time.Moves

/-!
# How often the clock is looked at

While no observation comes in, a running join looks at its clock at every tick, and later than that
when it is busy. `ObservationClock.polling_irrelevant`: it makes no difference to the clock at how
many times it has been looked at on the way to the last one. What carries this is that the target of
punctuation never falls as time goes on (`target_mono`), because neither the number of idle periods
nor the present does.
-/

namespace WindowJoin

namespace ObservationClock

/-- The clock after events; none if punctuation leaves the range of spans. -/
def run? (rules : Punctuation) (clock : ObservationClock) (events : List JoinEvent) :
    Option ObservationClock :=
  events.foldlM (fun clock event => event.moves? rules clock) clock

theorem run_append (rules : Punctuation) (clock : ObservationClock) (first second : List JoinEvent) :
    clock.run? rules (first ++ second) = (clock.run? rules first).bind (·.run? rules second) :=
  List.foldlM_append

/-- The clock after one more event. -/
theorem run_single (rules : Punctuation) (clock : ObservationClock) (event : JoinEvent) :
    clock.run? rules [event] = event.moves? rules clock := by
  simp [run?]

/-- The time to which punctuation raises the watermark of an idle clock; none if it leaves the range of
spans. -/
def target? (rules : Punctuation) (clock : ObservationClock) (now : Instant) : Option Instant :=
  match rules.addSlack, clock.latestEvent with
  | true, some latest =>
    let span := rules.slack * idlePeriods rules (now.since clock.lastArrival)
    if SpanInRange span then some (latest.addSaturating span) else none
  | _, _ => some (now.subSaturating rules.slack)

/-- Punctuation raises the watermark of an idle clock to its target. -/
theorem punctuate_eq (rules : Punctuation) (clock : ObservationClock) (now : Instant) :
    clock.punctuate? rules now =
      if now.since clock.lastArrival < rules.timeout then some clock
      else (clock.target? rules now).map clock.raise := by
  unfold punctuate? target?
  dsimp only
  split
  · rfl
  · cases rules.addSlack with
    | false => rfl
    | true =>
        cases clock.latestEvent with
        | none => rfl
        | some latest =>
            dsimp only
            split <;> rfl

/-! ## Idle periods -/

/-- A longer idle span has no fewer periods. -/
theorem idle_periods_mono (rules : Punctuation) {first second : Int} (h : first ≤ second) :
    idlePeriods rules first ≤ idlePeriods rules second := by
  have hmillis : millisOfSpan first ≤ millisOfSpan second := Int.tdiv_le_tdiv (by decide) h
  have hperiods := Int.tdiv_le_tdiv (c := Max.max (millisOfSpan rules.timeout) 1)
    (Int.lt_of_lt_of_le (by decide) (Int.le_max_right _ _)) hmillis
  unfold idlePeriods
  dsimp only
  omega

theorem one_le_idle_periods (rules : Punctuation) (idle : Int) : 1 ≤ idlePeriods rules idle := by
  unfold idlePeriods maxPeriods
  dsimp only
  omega

/-- A span that is shorter than one in range is in range. -/
theorem span_in_range_of_le {first second : Int} (hfirst : 0 ≤ first) (hle : first ≤ second)
    (h : SpanInRange second) : SpanInRange first := by
  unfold SpanInRange at *
  rw [Int.fdiv_eq_ediv_of_nonneg _ (by decide)] at *
  simp only [nanosPerSecond, Int.cast_ofNat_Int] at *
  omega

/-! ## Clocks away from leap seconds -/

/-- Neither has an observation come in in a leap second, nor was it of one at the end of time. -/
structure Plain (clock : ObservationClock) : Prop where
  arrival : clock.lastArrival.nanos < nanosPerSecond
  latest : ∀ latest ∈ clock.latestEvent, latest ≤ Instant.latest

theorem plain_new {start : Instant} (h : start.nanos < nanosPerSecond) : (new start).Plain :=
  ⟨h, by rintro latest ⟨⟩⟩

variable {rules : Punctuation} {clock next : ObservationClock} {earlier later : Instant}

theorem Plain.raise (h : clock.Plain) (candidate : Instant) : (clock.raise candidate).Plain :=
  ⟨h.arrival, h.latest⟩

theorem Plain.punctuate (h : clock.Plain) (hnext : clock.punctuate? rules earlier = some next) :
    next.Plain := by
  rw [punctuate_eq] at hnext
  split at hnext
  · cases hnext
    exact h
  · obtain ⟨target, -, rfl⟩ := Option.map_eq_some_iff.mp hnext
    exact h.raise target

/-- What an observation has to keep to. -/
def PlainEvent (rules : Punctuation) : JoinEvent → Prop
  | .observations now batch => now.nanos < nanosPerSecond ∧ timeFor rules batch ≤ Instant.latest
  | _ => True

theorem Plain.moves {event : JoinEvent} (h : clock.Plain) (hevent : PlainEvent rules event)
    (hnext : event.moves? rules clock = some next) : next.Plain := by
  cases event with
  | interactions batch =>
      cases hnext
      exact h
  | observations now batch =>
      cases hnext
      refine Plain.raise ⟨hevent.1, ?_⟩ _
      rintro latest ⟨⟩
      cases hlatest : clock.latestEvent with
      | none => exact hevent.2
      | some latest =>
          show latest.max (timeFor rules batch) ≤ Instant.latest
          unfold Instant.max
          split
          · exact hevent.2
          · exact h.latest latest hlatest
  | silence now => exact h.punctuate hnext
  | close =>
      cases hnext
      exact h.raise _

theorem Plain.run {events : List JoinEvent} (h : clock.Plain)
    (hevents : ∀ event ∈ events, PlainEvent rules event)
    (hnext : clock.run? rules events = some next) : next.Plain := by
  induction events generalizing clock with
  | nil =>
      cases hnext
      exact h
  | cons event rest ih =>
      obtain ⟨between, hmoves, hrest⟩ := Option.bind_eq_some_iff.mp hnext
      exact ih (h.moves (hevents event List.mem_cons_self) hmoves)
        (fun other hother => hevents other (List.mem_cons_of_mem _ hother)) hrest

/-! ## Looking at the clock -/

/-- A clock that has been idle for longer. -/
theorem Plain.idle_mono (h : clock.Plain) (hearlier : earlier.nanos < nanosPerSecond)
    (hlater : later.nanos < nanosPerSecond) (hle : earlier ≤ later) :
    earlier.since clock.lastArrival ≤ later.since clock.lastArrival := by
  rw [Instant.since_of_plain hearlier h.arrival, Instant.since_of_plain hlater h.arrival]
  have hscale := Instant.scale_mono hearlier hle
  omega

/-- The target of punctuation never falls, and where the later one can be computed so can the earlier
one. -/
theorem Plain.target_mono (h : clock.Plain) (hslack : 0 ≤ rules.slack)
    (hearlier : earlier.nanos < nanosPerSecond) (hlater : later.nanos < nanosPerSecond)
    (hle : earlier ≤ later) {reached : Instant} (hreached : clock.target? rules later = some reached) :
    ∃ before, clock.target? rules earlier = some before ∧ before ≤ reached := by
  unfold target? at *
  split at hreached
  next latest hadds hlatest =>
    obtain ⟨hrange, hreached⟩ := Option.ite_none_right_eq_some.mp hreached
    cases hreached
    have hfewer := idle_periods_mono rules (h.idle_mono hearlier hlater hle)
    have hspan := Int.mul_le_mul_of_nonneg_left hfewer hslack
    have hnonneg := Int.mul_nonneg hslack (Int.le_trans Int.one_nonneg
      (one_le_idle_periods rules (earlier.since clock.lastArrival)))
    exact ⟨_, if_pos (span_in_range_of_le hnonneg hspan hrange),
      Instant.add_saturating_mono (h.latest latest hlatest) hnonneg hspan⟩
  next =>
    cases hreached
    exact ⟨_, rfl, Instant.sub_saturating_mono hslack (.inl hearlier) hle⟩

/-- Raising a watermark twice raises it to the later of the two. -/
theorem raise_raise (clock : ObservationClock) {first second : Instant} (h : first ≤ second) :
    (clock.raise first).raise second = clock.raise second := by
  refine congrArg (fun watermark => { clock with watermark }) ?_
  show (clock.watermark.max first).max second = clock.watermark.max second
  unfold Instant.max
  split
  next hfirst =>
    split
    next hsecond => rw [if_pos (Instant.lt_of_lt_of_le hfirst h)]
    next hsecond =>
      have heq := Instant.le_antisymm h (Instant.not_lt.mp hsecond)
      rw [if_pos (heq ▸ hfirst), heq]
  next => rfl

/-- A look at the clock makes no difference to a later one. -/
theorem Plain.punctuate_again (h : clock.Plain) (hslack : 0 ≤ rules.slack)
    (hearlier : earlier.nanos < nanosPerSecond) (hlater : later.nanos < nanosPerSecond)
    (hle : earlier ≤ later) :
    (clock.punctuate? rules earlier).bind (·.punctuate? rules later) =
      clock.punctuate? rules later := by
  rw [punctuate_eq rules clock earlier]
  split
  next => rfl
  next hidle =>
    have hlonger : ¬ later.since clock.lastArrival < rules.timeout := fun hbusy =>
      hidle (Int.lt_of_le_of_lt (h.idle_mono hearlier hlater hle) hbusy)
    have hraised (candidate : Instant) : (clock.raise candidate).punctuate? rules later =
        (clock.target? rules later).map (clock.raise candidate).raise := by
      rw [punctuate_eq]
      exact if_neg hlonger
    rw [punctuate_eq rules clock later, if_neg hlonger]
    cases hreached : clock.target? rules later with
    | none =>
        rw [Option.bind_map]
        cases clock.target? rules earlier with
        | none => rfl
        | some before =>
            show (clock.raise before).punctuate? rules later = _
            rw [hraised, hreached]
            rfl
    | some reached =>
        obtain ⟨before, hbefore, hbelow⟩ := h.target_mono hslack hearlier hlater hle hreached
        rw [hbefore]
        show (clock.raise before).punctuate? rules later = _
        rw [hraised, hreached]
        exact congrArg some (raise_raise clock hbelow)

/-- Any number of looks at the clock make no difference to a look that comes after them. -/
theorem Plain.punctuate_all (h : clock.Plain) (hslack : 0 ≤ rules.slack) {readings : List Instant}
    {last : Instant} (hlast : last.nanos < nanosPerSecond)
    (hreadings : ∀ reading ∈ readings, reading.nanos < nanosPerSecond ∧ reading ≤ last) :
    clock.run? rules ((readings ++ [last]).map .silence) = clock.punctuate? rules last := by
  induction readings generalizing clock with
  | nil => exact run_single rules clock (.silence last)
  | cons reading rest ih =>
      obtain ⟨hreading, hle⟩ := hreadings reading List.mem_cons_self
      rw [← h.punctuate_again hslack hreading hlast hle]
      show (clock.punctuate? rules reading).bind (·.run? rules ((rest ++ [last]).map .silence)) = _
      refine Option.bind_congr fun next hnext => ?_
      exact ih (h.punctuate hnext) fun other hother =>
        hreadings other (List.mem_cons_of_mem _ hother)

/-- Let a clock have gone through any events from its start, and then be looked at without an
observation in between: at any number of times none of which is behind the last one. The clock is then
the one that a single look at the last time gives, and can be computed exactly if that one can. The
slack is not negative, no time of the wall clock lies in a leap second, and no observation in one at
the end of time. -/
theorem polling_irrelevant {rules : Punctuation} (hslack : 0 ≤ rules.slack) {start : Instant}
    (hstart : start.nanos < nanosPerSecond) {events : List JoinEvent}
    (hevents : ∀ now batch, .observations now batch ∈ events →
      now.nanos < nanosPerSecond ∧ timeFor rules batch ≤ Instant.latest)
    {readings : List Instant} {last : Instant} (hlast : last.nanos < nanosPerSecond)
    (hreadings : ∀ reading ∈ readings, reading.nanos < nanosPerSecond ∧ reading ≤ last) :
    (new start).run? rules (events ++ (readings ++ [last]).map .silence) =
      (new start).run? rules (events ++ [.silence last]) := by
  rw [run_append, run_append]
  refine Option.bind_congr fun clock hclock => ?_
  have hplain : clock.Plain := by
    refine (plain_new hstart).run (fun event hevent => ?_) hclock
    cases event with
    | observations now batch => exact hevents now batch hevent
    | interactions | silence | close => trivial
  rw [hplain.punctuate_all hslack hlast hreadings]
  exact (run_single rules clock (.silence last)).symm

/-- Two seconds for every ten without an observation. -/
def sampleRules : Punctuation :=
  ⟨10 * nanosPerSecond, 2 * nanosPerSecond, true, false⟩

/-- A number of seconds after the start of 1970. -/
def sampleWall (seconds : Int) : Instant :=
  Instant.epoch.addSaturating (seconds * nanosPerSecond)

/-- An observation of the fifth second comes in, and the clock is looked at nine, ten and thirty
seconds after that: it shows the eleventh second, as it does when it is looked at only once. -/
theorem polling_irrelevant_sample :
    (new (sampleWall 1000)).run? sampleRules
        ([.observations (sampleWall 1000) (Join.sampleBatch 1 5000 [("e", .observation)])] ++
          ([sampleWall 1009, sampleWall 1010] ++ [sampleWall 1030]).map .silence) =
      (new (sampleWall 1000)).run? sampleRules
        ([.observations (sampleWall 1000) (Join.sampleBatch 1 5000 [("e", .observation)])] ++
          [.silence (sampleWall 1030)]) ∧
    ((new (sampleWall 1000)).run? sampleRules
        [.observations (sampleWall 1000) (Join.sampleBatch 1 5000 [("e", .observation)]),
          .silence (sampleWall 1030)]).map (·.watermark) = some (sampleWall 11) := by
  refine ⟨polling_irrelevant (by decide) (by decide) ?_ (by decide) (by decide), by decide +kernel⟩
  intro now batch hevent
  cases List.mem_singleton.mp hevent
  decide

end ObservationClock

end WindowJoin
