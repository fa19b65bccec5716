import WindowJoin.Time.Instant

/-!
# Instants that are moved by a span

Moving an instant by a span leads to the instant that lies the span away, unless this is out of range
(`back_cases`, `beyond_cases`). So the order of instants is kept when both are moved back
(`sub_saturating_mono`), and a longer move forward leads no less far (`add_saturating_mono`). Leap
seconds stand in the way: they have no place of their own on the scale on which spans are counted.
-/

namespace WindowJoin.Instant

/-- The nanoseconds since 1970, where those past a second are counted on, leap second or not. -/
def scale (time : Instant) : Int :=
  time.seconds * nanosPerSecond + time.nanos

/-- Nothing is before the earliest instant. -/
theorem earliest_le_all (time : Instant) : earliest ≤ time := by
  have hseconds : earliestSecond ≤ time.seconds := time.earliest_le
  rw [le_def]
  show earliestSecond < time.seconds ∨ earliestSecond = time.seconds ∧ 0 ≤ time.nanos
  omega

/-- Whole seconds and a rest make an instant, unless they lie before the earliest one or behind the
latest one. -/
theorem of_nanos_after_cases (seconds nanos : Int) :
    (∃ time, ofNanosAfter? seconds nanos = some time ∧
      time.scale = seconds * nanosPerSecond + nanos ∧ time.nanos < nanosPerSecond) ∨
    ofNanosAfter? seconds nanos = none ∧
      (seconds * nanosPerSecond + nanos < earliestSecond * nanosPerSecond ∨
        (latestSecond + 1) * nanosPerSecond ≤ seconds * nanosPerSecond + nanos) := by
  have hdiv : nanos.fdiv nanosPerSecond = nanos / nanosPerSecond :=
    Int.fdiv_eq_ediv_of_nonneg _ (by decide)
  have hmod : nanos.fmod nanosPerSecond = nanos % nanosPerSecond :=
    Int.fmod_eq_emod_of_nonneg _ (by decide)
  have hrest : 0 ≤ nanos % nanosPerSecond := Int.emod_nonneg _ (by decide)
  have hless : nanos % nanosPerSecond < nanosPerSecond := Int.emod_lt_of_pos _ (by decide)
  have hwhole : nanosPerSecond * (nanos / nanosPerSecond) + nanos % nanosPerSecond = nanos :=
    Int.mul_ediv_add_emod nanos nanosPerSecond
  rw [ofNanosAfter?, hdiv, hmod]
  cases hparts : ofParts? (seconds + nanos / nanosPerSecond) (nanos % nanosPerSecond).toNat with
  | some time =>
      obtain ⟨hseconds, hnanos⟩ := parts_of_of_parts hparts
      refine .inl ⟨time, rfl, ?_, by omega⟩
      rw [scale, hseconds, hnanos]
      simp only [nanosPerSecond, Int.cast_ofNat_Int] at *
      omega
  | none =>
      refine .inr ⟨rfl, ?_⟩
      unfold ofParts? at hparts
      split at hparts
      next => cases hparts
      next hrange =>
        simp only [nanosPerSecond, earliestSecond, latestSecond, Int.cast_ofNat_Int] at *
        omega

/-! ## Backwards -/

/-- Whole seconds and a rest that lie a span before a time, and not in a leap second of it, make an
instant, unless they lie before the earliest one. -/
theorem of_nanos_after_back {time : Instant} {span seconds nanos : Int}
    (hsum : seconds * nanosPerSecond + nanos = time.scale - span)
    (hbound : time.scale - span < (time.seconds + 1) * nanosPerSecond) :
    (∃ less, ofNanosAfter? seconds nanos = some less ∧ less.scale = time.scale - span ∧
      less.seconds ≤ time.seconds ∧ (less.nanos < nanosPerSecond ∨ less.seconds = time.seconds)) ∨
    ofNanosAfter? seconds nanos = none ∧
      time.scale - span < earliestSecond * nanosPerSecond := by
  have hlatest : (time.seconds + 1) * nanosPerSecond ≤ (latestSecond + 1) * nanosPerSecond :=
    Int.mul_le_mul_of_nonneg_right (Int.add_le_add_right time.le_latest 1) (by decide)
  rw [← hsum] at hbound ⊢
  rcases of_nanos_after_cases seconds nanos with
    ⟨less, hless, hscale, hfits⟩ | ⟨hnone, hearly | hlate⟩
  · refine .inl ⟨less, hless, hscale, ?_, .inl hfits⟩
    rw [← hscale] at hbound
    simp only [scale, nanosPerSecond, Int.cast_ofNat_Int] at hbound
    omega
  · exact .inr ⟨hnone, hearly⟩
  · exact absurd (Int.lt_of_lt_of_le hbound hlatest) (Int.not_lt.mpr hlate)

/-- A move back within a leap second, or to the second before it ends. -/
theorem of_parts_within {time : Instant} {span : Int} (hspan : 0 ≤ span)
    (hleap : nanosPerSecond ≤ time.nanos) (hwithin : span < nanosPerSecond) :
    ∃ less, ofParts? time.seconds (time.nanos + -span).toNat = some less ∧
      less.scale = time.scale - span ∧ less.seconds = time.seconds := by
  have hnanos := time.nanos_bound
  have hparts : ofParts? time.seconds (time.nanos + -span).toNat =
      some ⟨time.seconds, (time.nanos + -span).toNat, time.earliest_le, time.le_latest, by omega⟩ :=
    dif_pos ⟨⟨time.earliest_le, time.le_latest⟩, by omega⟩
  refine ⟨_, hparts, ?_, rfl⟩
  show time.seconds * nanosPerSecond + ((time.nanos + -span).toNat : Int) =
    time.seconds * nanosPerSecond + time.nanos - span
  omega

/-- A move back by a span leads to an instant that lies as much earlier, or before the earliest one.
It can end in a leap second only if it begins in the same one. -/
theorem back_cases (time : Instant) {span : Int} (hspan : 0 ≤ span) :
    (∃ less, time.add? (-span) = some less ∧ less.scale = time.scale - span ∧
      less.seconds ≤ time.seconds ∧ (less.nanos < nanosPerSecond ∨ less.seconds = time.seconds)) ∨
    time.add? (-span) = none ∧ time.scale - span < earliestSecond * nanosPerSecond := by
  have hnanos := time.nanos_bound
  unfold add?
  split
  next hplain =>
    refine of_nanos_after_back ?_ ?_
    · rw [scale]
      omega
    · rw [scale, Int.add_mul]
      omega
  next hleap =>
    have hdiv : (-span).tdiv nanosPerSecond = -(span / nanosPerSecond) := by
      rw [Int.neg_tdiv, Int.tdiv_eq_ediv_of_nonneg hspan]
    have hmod : (-span).tmod nanosPerSecond = -(span % nanosPerSecond) := by
      rw [Int.neg_tmod, Int.tmod_eq_emod_of_nonneg hspan]
    simp only [hdiv, hmod]
    split
    next hforward =>
      -- no move back goes out of the leap second forwards
      simp only [nanosPerSecond, Int.cast_ofNat_Int] at hforward
      omega
    next =>
      split
      next hback =>
        refine of_nanos_after_back ?_ ?_
        · rw [scale, Int.add_mul]
          omega
        · simp only [scale, nanosPerSecond, Int.cast_ofNat_Int] at *
          omega
      next hstays =>
        have hwithin : span < nanosPerSecond := by
          simp only [nanosPerSecond, Int.cast_ofNat_Int] at hstays ⊢
          omega
        obtain ⟨less, hless, hscale, hsame⟩ :=
          of_parts_within hspan (Nat.le_of_not_lt hleap) hwithin
        rw [Int.emod_eq_of_lt hspan hwithin]
        exact .inl ⟨less, hless, hscale, Int.le_of_eq hsame, .inr hsame⟩

/-- Of two instants the earlier one stays the earlier one when both are moved back, unless it is in
a leap second and the later one in the second after that. -/
theorem sub_saturating_mono {first second : Instant} {span : Int} (hspan : 0 ≤ span)
    (hplain : first.nanos < nanosPerSecond ∨ second.seconds ≠ first.seconds + 1)
    (hle : first ≤ second) :
    first.subSaturating span ≤ second.subSaturating span := by
  have hnanos := first.nanos_bound
  rcases first.back_cases hspan with ⟨less, hless, hscale, hseconds, hparts⟩ | ⟨hnone, -⟩
  · rcases second.back_cases hspan with ⟨other, hother, hotherScale, -, hotherParts⟩ | ⟨-, hearly⟩
    · rw [subSaturating, hless, Option.getD_some, subSaturating, hother, Option.getD_some]
      rw [le_def] at *
      simp only [scale, nanosPerSecond, Int.cast_ofNat_Int] at *
      omega
    · have hrange := less.earliest_le
      rw [le_def] at hle
      simp only [scale, nanosPerSecond, Int.cast_ofNat_Int] at *
      omega
  · rw [subSaturating, hnone]
    exact earliest_le_all _

/-! ## Forwards -/

/-- A move forward within a leap second. -/
theorem add_within {time : Instant} {span : Int} (hspan : 0 ≤ span)
    (hleap : nanosPerSecond ≤ time.nanos) (hwithin : time.nanos + span < 2 * nanosPerSecond) :
    ∃ more, time.add? span = some more ∧ more.seconds = time.seconds ∧
      (more.nanos : Int) = time.nanos + span := by
  have hshort : span < nanosPerSecond := by omega
  have hdiv : span.tdiv nanosPerSecond = 0 := Int.tdiv_eq_zero_of_lt hspan hshort
  have hmod : span.tmod nanosPerSecond = span := Int.tmod_eq_of_lt hspan hshort
  have hnanos := time.nanos_bound
  have hparts : ofParts? time.seconds (time.nanos + span).toNat =
      some ⟨time.seconds, (time.nanos + span).toNat, time.earliest_le, time.le_latest, by omega⟩ :=
    dif_pos ⟨⟨time.earliest_le, time.le_latest⟩, by omega⟩
  refine ⟨⟨time.seconds, (time.nanos + span).toNat, time.earliest_le, time.le_latest, by omega⟩,
    ?_, rfl, Int.toNat_of_nonneg (by omega)⟩
  rw [← hparts, add?, if_neg (by omega)]
  simp only [hdiv, hmod]
  rw [if_neg (by omega), if_neg (by omega)]

/-- Any other move forward counts from the start of a leap second. -/
theorem add_beyond {time : Instant} {span : Int} (hspan : 0 ≤ span)
    (hbeyond : time.nanos < nanosPerSecond ∨ 2 * nanosPerSecond ≤ time.nanos + span) :
    time.add? span =
      ofNanosAfter? time.seconds ((time.nanos % nanosPerSecond : Nat) + span) := by
  have hnanos := time.nanos_bound
  unfold add?
  split
  next hplain => rw [Nat.mod_eq_of_lt hplain]
  next hleap =>
    have hrest : ((time.nanos % nanosPerSecond : Nat) : Int) = time.nanos - nanosPerSecond := by
      simp only [nanosPerSecond] at hleap hnanos ⊢
      omega
    have hforward : 0 < span.tdiv nanosPerSecond ∨ 0 < span.tmod nanosPerSecond ∧
        2 * nanosPerSecond ≤ time.nanos + span.tmod nanosPerSecond := by
      rw [Int.tdiv_eq_ediv_of_nonneg hspan, Int.tmod_eq_emod_of_nonneg hspan]
      simp only [nanosPerSecond, Int.cast_ofNat_Int] at *
      omega
    rw [hrest]
    simp only [if_pos hforward]

/-- Such a move leads to an instant outside leap seconds, or behind the latest one. -/
theorem beyond_cases {time : Instant} {span : Int} (hspan : 0 ≤ span)
    (hbeyond : time.nanos < nanosPerSecond ∨ 2 * nanosPerSecond ≤ time.nanos + span) :
    (∃ more, time.add? span = some more ∧ more.nanos < nanosPerSecond ∧
      more.scale = time.seconds * nanosPerSecond + (time.nanos % nanosPerSecond : Nat) + span) ∨
    time.add? span = none ∧ (latestSecond + 1) * nanosPerSecond ≤
      time.seconds * nanosPerSecond + (time.nanos % nanosPerSecond : Nat) + span := by
  rw [add_beyond hspan hbeyond, Int.add_assoc]
  rcases of_nanos_after_cases time.seconds ((time.nanos % nanosPerSecond : Nat) + span) with
    ⟨more, hmore, hscale, hplain⟩ | ⟨hnone, hearly | hlate⟩
  · exact .inl ⟨more, hmore, hplain, hscale⟩
  · -- a move forward does not lead before the earliest instant
    have hseconds : earliestSecond * nanosPerSecond ≤ time.seconds * nanosPerSecond :=
      Int.mul_le_mul_of_nonneg_right time.earliest_le (by decide)
    omega
  · exact .inr ⟨hnone, hlate⟩

/-- An instant outside leap seconds is not behind the latest one. -/
theorem le_latest_of_plain {time : Instant} (h : time.nanos < nanosPerSecond) : time ≤ latest := by
  have hseconds : time.seconds ≤ latestSecond := time.le_latest
  rw [le_def]
  show time.seconds < latestSecond ∨ time.seconds = latestSecond ∧ time.nanos ≤ 999999999
  simp only [nanosPerSecond] at h
  omega

/-- A longer move forward leads no less far, unless it begins in a leap second at the end of time. -/
theorem add_saturating_mono {time : Instant} (htime : time ≤ latest) {span more : Int}
    (hspan : 0 ≤ span) (hle : span ≤ more) :
    time.addSaturating span ≤ time.addSaturating more := by
  have hmore : 0 ≤ more := Int.le_trans hspan hle
  rw [addSaturating, addSaturating]
  by_cases hwithin : nanosPerSecond ≤ time.nanos ∧ time.nanos + span < 2 * nanosPerSecond
  · obtain ⟨first, hfirst, hseconds, hnanos⟩ := add_within hspan hwithin.1 hwithin.2
    have hlatest : time.seconds < latestSecond := by
      have hlast : latest.seconds = latestSecond ∧ latest.nanos = 999999999 := ⟨rfl, rfl⟩
      rw [le_def, hlast.1, hlast.2] at htime
      simp only [nanosPerSecond] at hwithin
      omega
    rw [hfirst, Option.getD_some]
    by_cases hstays : time.nanos + more < 2 * nanosPerSecond
    · obtain ⟨second, hsecond, hsame, hbehind⟩ := add_within hmore hwithin.1 hstays
      rw [hsecond, Option.getD_some, le_def]
      omega
    · rcases beyond_cases hmore (.inr (Int.not_lt.mp hstays)) with
        ⟨second, hsecond, hplain, hscale⟩ | ⟨hnone, -⟩
      · rw [hsecond, Option.getD_some, le_def]
        simp only [scale, nanosPerSecond, Int.cast_ofNat_Int] at *
        omega
      · rw [hnone, Option.getD_none, le_def, hseconds]
        exact .inl hlatest
  · have hbeyond (longer : Int) (h : span ≤ longer) : time.nanos < nanosPerSecond ∨
        2 * nanosPerSecond ≤ time.nanos + longer := by omega
    rcases beyond_cases hspan (hbeyond span (Int.le_refl _)) with
      ⟨first, hfirst, hplain, hscale⟩ | ⟨hnone, hlate⟩
    · rcases beyond_cases hmore (hbeyond more hle) with
        ⟨second, hsecond, hother, hotherScale⟩ | ⟨hnone, -⟩
      · rw [hfirst, hsecond, Option.getD_some, Option.getD_some, le_def]
        simp only [scale, nanosPerSecond, Int.cast_ofNat_Int] at *
        omega
      · rw [hfirst, hnone]
        exact le_latest_of_plain hplain
    · rcases beyond_cases hmore (hbeyond more hle) with
        ⟨second, hsecond, hother, hotherScale⟩ | ⟨hnoneMore, -⟩
      · have hsecondSeconds := second.le_latest
        simp only [scale, nanosPerSecond, latestSecond, Int.cast_ofNat_Int] at *
        omega
      · rw [hnone, hnoneMore]
        exact le_refl _

/-- A move forward leads as far as the span, but not behind the latest instant. -/
theorem add_saturating_scale {time : Instant} (hplain : time.nanos < nanosPerSecond) {span : Int}
    (hspan : 0 ≤ span) : (time.addSaturating span).nanos < nanosPerSecond ∧
      (time.addSaturating span).scale = Min.min (time.scale + span) latest.scale := by
  have hlast : latest.scale = (latestSecond + 1) * nanosPerSecond - 1 := by decide
  have hscale : time.seconds * nanosPerSecond + (time.nanos % nanosPerSecond : Nat) + span =
      time.scale + span := by
    rw [Nat.mod_eq_of_lt hplain]
    rfl
  rw [addSaturating]
  rcases beyond_cases hspan (.inl hplain) with ⟨more, hmore, hfits, hreached⟩ | ⟨hnone, hlate⟩
  · have hseconds := more.le_latest
    rw [hmore, Option.getD_some, hlast]
    refine ⟨hfits, ?_⟩
    simp only [scale, nanosPerSecond, latestSecond, Int.cast_ofNat_Int] at *
    omega
  · rw [hnone, Option.getD_none, hlast]
    exact ⟨by decide, by omega⟩

/-! ## From one instant to another -/

/-- Outside leap seconds the span from one instant to another is the difference on the scale. -/
theorem since_of_plain {later earlier : Instant} (hlater : later.nanos < nanosPerSecond)
    (hearlier : earlier.nanos < nanosPerSecond) :
    later.since earlier = later.scale - earlier.scale := by
  unfold since
  rw [if_neg (by omega), if_neg (by omega)]
  simp only [scale, nanosPerSecond, Int.cast_ofNat_Int]
  omega

/-- Outside leap seconds the scale keeps the order of instants. -/
theorem scale_mono {first second : Instant} (hplain : first.nanos < nanosPerSecond)
    (hle : first ≤ second) : first.scale ≤ second.scale := by
  rw [le_def] at hle
  simp only [scale, nanosPerSecond, Int.cast_ofNat_Int] at *
  omega

end WindowJoin.Instant
