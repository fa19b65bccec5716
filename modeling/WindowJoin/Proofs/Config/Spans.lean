import WindowJoin.Config.Settings
import WindowJoin.Proofs.Clock.Spans

/-!
# The spans of a configuration that has been validated

A time in milliseconds fits a span below 2^63. Validation looks at the window of the join only, so a
threshold, a timeout or a slack that does not fit is found later, and a slack that fits may still leave
the range of spans when a clock multiplies it. `Config.validated_computes` says exactly which validated
configurations the merge, the join and its clock can do with.
-/

namespace WindowJoin.Config

/-- The number of milliseconds from which on a time does not fit a span. -/
def spanLimit : Nat :=
  0x8000000000000000

theorem span_ok {setting : String} {millis : Nat} {span : Int} :
    span? setting millis = .ok span ↔ millis < spanLimit ∧ spanOfMillis millis = span := by
  unfold span? spanLimit
  split
  next hfits => simp [hfits]
  next hlarge => simp [hlarge]

/-- A time that fits a span makes one that a clock can compute with, and that is not negative. -/
theorem span_in_range {millis : Nat} (h : millis < spanLimit) :
    0 ≤ spanOfMillis millis ∧ ObservationClock.SpanInRange (spanOfMillis millis) := by
  unfold spanLimit at h
  unfold ObservationClock.SpanInRange
  rw [Int.fdiv_eq_ediv_of_nonneg _ (by decide)]
  simp only [spanOfMillis, nanosPerMilli, nanosPerSecond, Int.cast_ofNat_Int]
  omega

variable {config : Config}

theorem merge_rules_ok :
    (∃ rules, config.mergeRules? = .ok rules) ↔ config.historicalThreshold < spanLimit := by
  constructor
  · rintro ⟨rules, h⟩
    obtain ⟨span, hspan, -⟩ := except_bind_ok h
    exact (span_ok.mp hspan).1
  · intro h
    rw [mergeRules?, span_ok.mpr ⟨h, rfl⟩]
    exact ⟨_, rfl⟩

/-- The window of a configuration that has been validated fits a span. -/
theorem window_of_validate (h : config.validate = .ok ()) :
    ∃ window, config.joinWindow? = .ok window := by
  unfold validate at h
  split at h
  · cases h
  · obtain ⟨window, hwindow, -⟩ := except_bind_ok h
    exact ⟨window, hwindow⟩

/-- The settings of a join take the clock's from the configuration, if they fit spans. -/
theorem join_rules_parts {rules : JoinRules} (h : config.joinRules? = .ok rules) :
    config.punctuationTimeout < spanLimit ∧ config.punctuationSlack < spanLimit ∧
      rules.punctuation = ⟨spanOfMillis config.punctuationTimeout,
        spanOfMillis config.punctuationSlack, config.addPunctuationSlack,
        config.useClientTimestamp⟩ := by
  obtain ⟨window, -, h⟩ := except_bind_ok h
  obtain ⟨timeout, htimeout, h⟩ := except_bind_ok h
  obtain ⟨slack, hslack, h⟩ := except_bind_ok h
  obtain ⟨hfits, rfl⟩ := span_ok.mp htimeout
  obtain ⟨hfitsSlack, rfl⟩ := span_ok.mp hslack
  cases h
  exact ⟨hfits, hfitsSlack, rfl⟩

theorem join_rules_ok (hvalid : config.validate = .ok ()) :
    (∃ rules, config.joinRules? = .ok rules) ↔
      config.punctuationTimeout < spanLimit ∧ config.punctuationSlack < spanLimit := by
  constructor
  · rintro ⟨rules, h⟩
    obtain ⟨htimeout, hslack, -⟩ := join_rules_parts h
    exact ⟨htimeout, hslack⟩
  · rintro ⟨htimeout, hslack⟩
    obtain ⟨window, hwindow⟩ := window_of_validate hvalid
    rw [joinRules?, hwindow, span_ok.mpr ⟨htimeout, rfl⟩, span_ok.mpr ⟨hslack, rfl⟩]
    exact ⟨_, rfl⟩

/-- A configuration that has been validated gives the settings of the merges exactly if its threshold
fits a span, and those of the join exactly if its timeout and its slack do. With the settings of the
join the clock goes through all events exactly if it does not add slack, or the slack of the longest
idle span is in range. And where it adds slack, it is raised by that of the idle periods from the
latest observation on, with the latest instant in place of any behind it. -/
theorem validated_computes (hvalid : config.validate = .ok ()) :
    ((∃ rules, config.mergeRules? = .ok rules) ↔ config.historicalThreshold < spanLimit) ∧
    ((∃ rules, config.joinRules? = .ok rules) ↔
      config.punctuationTimeout < spanLimit ∧ config.punctuationSlack < spanLimit) ∧
    ∀ rules, config.joinRules? = .ok rules →
      ((∀ start events,
          ((ObservationClock.new start).run? rules.punctuation events).isSome = true) ↔
        (config.addPunctuationSlack = true →
          ObservationClock.SpanInRange (spanOfMillis config.punctuationSlack *
            ObservationClock.idlePeriods rules.punctuation ObservationClock.longestIdle))) ∧
      ∀ (clock next : ObservationClock) (now latest : Instant), config.addPunctuationSlack = true →
        clock.latestEvent = some latest → latest.nanos < nanosPerSecond →
        spanOfMillis config.punctuationTimeout ≤ now.since clock.lastArrival →
        clock.punctuate? rules.punctuation now = some next →
        ∃ reached : Instant, next = clock.raise reached ∧ reached.nanos < nanosPerSecond ∧
          reached.scale = min (latest.scale + spanOfMillis config.punctuationSlack *
              ObservationClock.idlePeriods rules.punctuation (now.since clock.lastArrival))
            Instant.latest.scale := by
  refine ⟨merge_rules_ok, join_rules_ok hvalid, fun rules hrules => ?_⟩
  obtain ⟨-, hfits, hparts⟩ := join_rules_parts hrules
  obtain ⟨hslack, hrange⟩ := span_in_range hfits
  rw [hparts]
  refine ⟨ObservationClock.computes_iff hslack hrange, ?_⟩
  intro clock next now latest hadds hlatest hplain hidle hnext
  exact ObservationClock.punctuate_reaches hslack hadds hlatest hplain hidle hnext

/-- The configuration in which nothing is set does not fail later. -/
theorem validated_computes_default :
    (∃ rules, ({} : Config).mergeRules? = .ok rules) ∧
    ∃ rules, ({} : Config).joinRules? = .ok rules ∧ ∀ start events,
      ((ObservationClock.new start).run? rules.punctuation events).isSome = true := by
  have hvalid : ({} : Config).validate = .ok () := rfl
  obtain ⟨hmerge, hjoin, hclock⟩ := validated_computes hvalid
  obtain ⟨rules, hrules⟩ := hjoin.mpr (by decide)
  refine ⟨hmerge.mpr (by decide), rules, hrules, (hclock rules hrules).1.mpr fun _ => ?_⟩
  obtain ⟨-, -, hparts⟩ := join_rules_parts hrules
  rw [hparts]
  decide

/-- The least slack that does not fit a span. -/
def tooLongSlack : Config :=
  { punctuationSlack := 0x8000000000000000 }

/-- The greatest slack that fits a span, added for every millisecond without an observation. -/
def longSlack : Config :=
  { punctuationSlack := 0x7FFFFFFFFFFFFFFF, punctuationTimeout := 1 }

/-- Both pass validation. The one gives no settings for the join; with those of the other, the clock
cannot be computed two seconds after an observation. -/
theorem validated_slack_fails :
    (tooLongSlack.validate = .ok () ∧
      tooLongSlack.joinRules? = .error (.config (.tooLarge "punctuation_slack"))) ∧
    longSlack.validate = .ok () ∧
    ∃ rules, longSlack.joinRules? = .ok rules ∧
      (ObservationClock.new .epoch).run? rules.punctuation
        [.observations .epoch ⟨0, 0, "0", .epoch, 1, [⟨"app", "a", .observation, .epoch, none, []⟩]⟩,
          .silence (ObservationClock.sampleWall 2)] = none :=
  ⟨⟨rfl, rfl⟩, rfl, _, rfl, by decide +kernel⟩

end WindowJoin.Config
