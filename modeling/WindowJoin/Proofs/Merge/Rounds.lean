import WindowJoin.Proofs.Merge.Accounts

/-!
# What a merge knows in a round

In a round a merge looks at its partitions one after the other: for those to wait for, then to bring
what is known of them up to date, then to choose. Meanwhile their writers go on, so that what it has
seen of a partition need not be all that there is. `Run.Scanned` says what it can rely on at each point:
every partition that it has come to and that has nothing at hand is closed, is still waited for, or is
excused (`Control.Covers`, `Round.Excuses`), and what a look has shown of the head stays so
(`Moment.Stands`). There is a lemma for each kind of turn that keeps it, and one for what others do
(`Scanned.outside`).
-/

namespace WindowJoin

/-- A partition is closed or has a batch at its head. -/
def MergeSlot.Settled (slot : MergeSlot) : Prop :=
  slot.closed = true ∨ slot.source.head.isSome = true

theorem MergeSlot.Settled.fill {slot : MergeSlot} (h : slot.Settled) : slot.fill.Settled := by
  rcases h with hclosed | hsome
  · exact .inl (slot.fill_closed ▸ hclosed)
  · obtain ⟨batch, hbatch⟩ := Option.isSome_iff_exists.mp hsome
    exact .inr (by rw [slot.fill_refills.head hbatch, Option.isSome_some])

namespace Merge

variable {rules : MergeRules} {run : Run}

/-! ## Excuses -/

namespace Round

/-- A partition need not be waited for any more: it was not to be waited for, or was waited for in
vain. -/
def Excuses (rules : MergeRules) (round : Round) (index : Nat) : Prop :=
  (∃ slot, (round.start index).view.slots[index]? = some slot ∧ slot.timeout? rules = none) ∨
    ∃ silence ∈ round.silences, silence.index = index

/-- A partition had nothing at hand when the round came to it and is to be waited for until the deadline
of its state. -/
def Awaits (rules : MergeRules) (round : Round) (wait : Wait) : Prop :=
  ∃ slot timeout, (round.start wait.slot).view.slots[wait.slot]? = some slot ∧
    slot.timeout? rules = some timeout ∧ (round.start wait.slot).stock wait.slot = [] ∧
    wait.deadline = pauseEnd (round.start wait.slot).view.now timeout

/-- A partition was empty from the time when the round came to it until the whole time for its state had
passed. -/
def Kept (rules : MergeRules) (round : Round) (silence : Silence) : Prop :=
  ∃ slot timeout, (round.start silence.index).view.slots[silence.index]? = some slot ∧
    slot.timeout? rules = some timeout ∧ (round.start silence.index).stock silence.index = [] ∧
    silence.moment.pushed silence.index = (round.start silence.index).pushed silence.index ∧
    silence.moment.stock silence.index = [] ∧
    pauseEnd (round.start silence.index).view.now timeout ≤ silence.moment.view.now

variable {round : Round} {moment : Moment} {index : Nat}

theorem come_start (round : Round) (index : Nat) (moment : Moment) :
    (round.come index moment).start index = moment :=
  Function.update_self ..

theorem come_start_of_ne {other : Nat} (hne : other ≠ index) :
    (round.come index moment).start other = round.start other :=
  Function.update_of_ne hne ..

/-- What holds of a moment and of the start so far holds of the start after the round has come to a
partition at that moment. -/
theorem come_start_all (claim : Moment → Prop) (hstart : ∀ other, claim (round.start other))
    (hmoment : claim moment) (other : Nat) : claim ((round.come index moment).start other) := by
  by_cases hother : other = index
  · rwa [hother, come_start]
  · rw [come_start_of_ne hother]
    exact hstart other

/-- Nothing was at hand when the round came to a partition, and its state allows a wait. -/
theorem come_awaits {slot : MergeSlot} {timeout : Nat}
    (hslot : moment.view.slots[index]? = some slot) (htimeout : slot.timeout? rules = some timeout)
    (hempty : moment.stock index = []) : (round.come index moment).Awaits rules
      ⟨index, pauseEnd moment.view.now timeout⟩ := by
  refine ⟨slot, timeout, ?_⟩
  rw [come_start]
  exact ⟨hslot, htimeout, hempty, rfl⟩

theorem come_excuses {slot : MergeSlot} (hslot : moment.view.slots[index]? = some slot)
    (htimeout : slot.timeout? rules = none) : (round.come index moment).Excuses rules index := by
  refine .inl ⟨slot, ?_, htimeout⟩
  rw [come_start]
  exact hslot

theorem Awaits.come {wait : Wait} (h : round.Awaits rules wait) (hne : wait.slot ≠ index) :
    (round.come index moment).Awaits rules wait := by
  unfold Awaits at h ⊢
  rwa [come_start_of_ne hne]

theorem Excuses.come {other : Nat} (h : round.Excuses rules other) (hne : other ≠ index) :
    (round.come index moment).Excuses rules other := by
  unfold Excuses at h ⊢
  rwa [come_start_of_ne hne]

end Round

/-- A slot that has been looked at and has nothing at its head holds nothing. -/
theorem fill_empty {slot : MergeSlot} (h : slot.Sound) (hhead : slot.fill.source.head = none) :
    slot.fill.source.stock.batches = [] := by
  unfold MergeSlot.fill at hhead ⊢
  split at hhead
  next hclosed =>
    rw [if_pos hclosed]
    exact (h.source.ended (h.closed hclosed)).2
  next hclosed =>
    rw [if_neg hclosed]
    exact slot.source.fill_filled.stock_nil h.source hhead

theorem look_slot {here : Moment} {index : Nat} {slot : MergeSlot}
    (hslot : here.view.slots[index]? = some slot) :
    (here.look index slot).view.slots[index]? = some slot.fill :=
  List.getElem?_set_self (List.getElem?_eq_some_iff.mp hslot).1

/-- A place with a slot is before one without. -/
theorem lt_of_slots {slots : List MergeSlot} {count index : Nat} {slot : MergeSlot}
    (hnone : slots[count]? = none) (hslot : slots[index]? = some slot) : index < count :=
  Nat.lt_of_lt_of_le (List.getElem?_eq_some_iff.mp hslot).1 (List.getElem?_eq_none_iff.mp hnone)

/-- The waits that are noted as in vain. -/
theorem mem_silences {moment : Moment} {waits rest : List Wait} {silence : Silence} :
    silence ∈ moment.silences waits rest ↔ ∃ wait slot, wait ∈ waits ∧ wait ∉ rest ∧
      moment.view.slots[wait.slot]? = some slot ∧ slot.source.head = none ∧
      slot.source.exhausted = false ∧ silence = ⟨wait.slot, moment⟩ := by
  simp only [Moment.silences, List.mem_map, List.mem_filter, Bool.and_eq_true, decide_eq_true_eq,
    Option.any_eq_true, Option.isNone_iff_eq_none, Bool.not_eq_true']
  constructor
  · rintro ⟨wait, ⟨hwait, hover, slot, hslot, hhead, hend⟩, rfl⟩
    exact ⟨wait, slot, hwait, hover, hslot, hhead, hend, rfl⟩
  · rintro ⟨wait, slot, hwait, hover, hslot, hhead, hend, rfl⟩
    exact ⟨wait, ⟨hwait, hover, slot, hslot, hhead, hend⟩, rfl⟩

/-! ## What a merge knows while it looks and waits -/

/-- The waits that have been noted in this round. -/
def Control.waits? : Control → Option (List Wait)
  | .surveying _ waits | .filling waits => some waits
  | _ => none

/-- A partition that the merge has come to in this round has something at hand, is closed or has met its
end, is waited for, or is excused. -/
def Control.Covers (rules : MergeRules) (control : Control) (round : Round) (index : Nat)
    (slot : MergeSlot) : Prop :=
  match control with
  | .surveying count waits => index < count →
    slot.Settled ∨ slot.source.exhausted = true ∨ (∃ wait ∈ waits, wait.slot = index) ∨
      round.Excuses rules index
  | .filling waits =>
    slot.Settled ∨ slot.source.exhausted = true ∨ (∃ wait ∈ waits, wait.slot = index) ∨
      round.Excuses rules index
  | .updating count _ _ =>
    slot.Settled ∨ count ≤ index ∧ slot.source.exhausted = true ∨ round.Excuses rules index
  | .choosing _ => slot.Settled ∨ round.Excuses rules index
  | _ => True

/-- What has been found out about a partition before its next look. -/
def Control.Asks (rules : MergeRules) (control : Control) (round : Round)
    (slots : List MergeSlot) : Prop :=
  match control with
  | .updating index .drained _ => ∀ slot, slots[index]? = some slot → ¬ slot.Settled
  | .updating index .status _ => round.Excuses rules index
  | _ => True

/-- What a look at a partition has shown is still so, if the merge has come to it for this choice. -/
structure Moment.Stands (look here : Moment) (sent : List Choice) (count index : Nat) : Prop where
  precedes : look.Precedes here
  sound : look.view.Sound
  balanced : look.Balanced sent
  places : look.view.slots.length = here.view.slots.length
  shown : index < count → ∀ slot, here.view.slots[index]? = some slot →
    ∃ seen, look.view.slots[index]? = some seen ∧ seen.closed = slot.closed ∧
      seen.source.head = slot.source.head ∧
      (seen.source.head = none → seen.source.stock.batches = [])

/-- A look still stands when something has happened that does not touch the head of the partition. -/
theorem Moment.Stands.later {look here later : Moment} {sent : List Choice} {count index : Nat}
    (h : look.Stands here sent count index) (hprecedes : here.Precedes later)
    (hlength : later.view.slots.length = here.view.slots.length)
    (hslots : ∀ slot, later.view.slots[index]? = some slot → ∃ first,
      here.view.slots[index]? = some first ∧ slot.closed = first.closed ∧
        slot.source.head = first.source.head) : look.Stands later sent count index where
  precedes := h.precedes.trans hprecedes
  sound := h.sound
  balanced := h.balanced
  places := h.places.trans hlength.symm
  shown hindex slot hslot := by
    obtain ⟨first, hfirst, hclosed, hhead⟩ := hslots slot hslot
    rw [hclosed, hhead]
    exact h.shown hindex first hfirst

/-- A look shows the head of the partition, and that nothing is in stock if there is none. -/
theorem Moment.stands_look {here : Moment} {sent : List Choice} (hsound : here.view.Sound)
    (hbalanced : here.Balanced sent) {index : Nat} {slot : MergeSlot}
    (hslot : here.view.slots[index]? = some slot) :
    (here.look index slot).Stands (here.look index slot) sent (index + 1) index where
  precedes := .of_writers rfl rfl
  sound := hsound.look hslot
  balanced := hbalanced.look hslot
  places := rfl
  shown _ found hfound := by
    refine ⟨found, hfound, rfl, rfl, fun hhead => ?_⟩
    rcases set_cases hfound with ⟨-, rfl⟩ | ⟨hne, -⟩
    · exact fill_empty (hsound slot (List.mem_of_getElem? hslot)) hhead
    · exact absurd rfl hne

/-- A look at the next partition leaves the looks before it as they are. -/
theorem Moment.Stands.look {look here : Moment} {sent : List Choice} {count index : Nat}
    (h : look.Stands here sent count index) (hne : index ≠ count) {slot : MergeSlot}
    (hslot : here.view.slots[count]? = some slot) :
    look.Stands (here.look count slot) sent (count + 1) index := by
  have hbefore : look.Stands here sent (count + 1) index :=
    { h with shown := fun hlt => h.shown (by omega) }
  refine hbefore.later (.look hslot) (List.length_set ..) fun found hfound => ?_
  rcases set_cases hfound with ⟨heq, -⟩ | ⟨-, hfound⟩
  · exact absurd heq hne
  · exact ⟨found, hfound, rfl, rfl⟩

namespace Run

/-- What a merge knows while it looks and waits. -/
structure Scanned (rules : MergeRules) (run : Run) : Prop where
  /-- Nothing has been sent since the round began. -/
  start : ∀ waits, run.control.waits? = some waits →
    ∀ index, (run.round.start index).Balanced run.sent
  waits : ∀ waits, run.control.waits? = some waits → ∀ wait ∈ waits, run.round.Awaits rules wait
  surveyed : ∀ count waits, run.control = .surveying count waits →
    run.round.silences = [] ∧ ∀ wait ∈ waits, wait.slot < count
  covers : ∀ index slot, run.here.view.slots[index]? = some slot →
    run.control.Covers rules run.round index slot
  asks : run.control.Asks rules run.round run.here.view.slots
  stands : ∀ count, run.control = .choosing count →
    ∀ index, (run.looks index).Stands run.here run.sent count index

namespace Scanned

/-- A merge that neither looks nor waits for one partition has nothing to know. -/
theorem free (h : run.control = .top ∨ (∃ batch, run.control = .sending batch) ∨
    (∃ deadline, run.control = .idling deadline) ∨ run.control = .finished) : run.Scanned rules := by
  rcases h with h | ⟨_, h⟩ | ⟨_, h⟩ | h <;>
    exact {
      start := fun waits hwaits => by rw [h] at hwaits; cases hwaits
      waits := fun waits hwaits => by rw [h] at hwaits; cases hwaits
      surveyed := fun count waits hcontrol => by rw [h] at hcontrol; cases hcontrol
      covers := fun index slot hslot => by rw [h]; trivial
      asks := by rw [h]; trivial
      stands := fun count hcontrol => by rw [h] at hcontrol; cases hcontrol }

theorem await (h : run.Scanned rules) {index : Nat} {waits : List Wait}
    (hcontrol : run.control = .surveying index waits)
    (hnone : run.here.view.slots[index]? = none) :
    Scanned rules { run with control := .filling waits } where
  start rest hrest := h.start waits (by rw [hcontrol]; rfl)
  waits rest hrest := by
    obtain rfl := Option.some.inj hrest
    exact h.waits waits (by rw [hcontrol]; rfl)
  surveyed := nofun
  covers place slot hslot := by
    have hcovers := h.covers place slot hslot
    rw [hcontrol] at hcovers
    exact hcovers (lt_of_slots hnone hslot)
  asks := trivial
  stands := nofun

theorem review (h : run.Scanned rules) (hcontrol : run.control = .filling []) (wall : Instant) :
    Scanned rules { run with control := .updating 0 .head wall } where
  start := nofun
  waits := nofun
  surveyed := nofun
  covers place slot hslot := by
    have hcovers := h.covers place slot hslot
    rw [hcontrol] at hcovers
    rcases hcovers with hsettled | hend | ⟨wait, hwait, -⟩ | hexcuses
    · exact .inl hsettled
    · exact .inr (.inl ⟨Nat.zero_le _, hend⟩)
    · cases hwait
    · exact .inr (.inr hexcuses)
  asks := trivial
  stands := nofun

/-- What is known of a partition after a look to bring it up to date. -/
theorem covers_update (h : run.Scanned rules) {index : Nat} {question : MergeSlot.Question}
    {wall : Instant} {slot : MergeSlot} {next : MergeSlot × Option MergeSlot.Question}
    (hcontrol : run.control = .updating index question wall)
    (hslot : run.here.view.slots[index]? = some slot) (hupdated : slot.Updated question next) :
    (goOn index wall next.2).Covers rules run.round index next.1 ∧
      (goOn index wall next.2).Asks rules run.round (run.here.view.set index next.1).slots := by
  have hcovers := h.covers index slot hslot
  have hasks := h.asks
  rw [hcontrol] at hcovers hasks
  have hlt := (List.getElem?_eq_some_iff.mp hslot).1
  cases hupdated with
  | closed hclosed => exact ⟨.inl (.inl hclosed), trivial⟩
  | lively _ hhead => exact ⟨.inl (.inr (by rw [hhead, Option.isSome_some])), trivial⟩
  | empty hopen hhead =>
      have hunsettled : ¬ slot.Settled := by
        rintro (hclosed | hsome)
        · rw [hopen] at hclosed
          cases hclosed
        · rw [(PartitionSource.Refills.fill slot.source).head_none hhead] at hsome
          cases hsome
      refine ⟨.inr ?_, fun next hnext => ?_⟩
      · refine (hcovers.resolve_left hunsettled).imp_left fun hend => ⟨hend.1, ?_⟩
        exact (PartitionSource.Refills.fill slot.source).exhausted hend.2
      · rw [View.set, List.getElem?_set_self hlt, Option.some.injEq] at hnext
        subst hnext
        rintro (hclosed | hsome)
        · exact hunsettled (.inl hclosed)
        · rw [show slot.source.fill.head = none from hhead] at hsome
          cases hsome
  | drained => exact ⟨.inl (.inl rfl), trivial⟩
  | undrained hmore =>
      -- A source that has met its end is not filled any more: it would be drained.
      have hunsettled := hasks slot hslot
      have hexcuses : run.round.Excuses rules index := by
        refine (hcovers.resolve_left hunsettled).resolve_left ?_
        rintro ⟨-, hend⟩
        have hstill : slot.source.fill = slot.source := by
          rw [PartitionSource.fill, if_pos (by rw [hend, Bool.or_true])]
        rw [hstill] at hmore
        rcases hmore with hsome | hopen
        · exact hunsettled (.inr hsome)
        · rw [hend] at hopen
          cases hopen
      exact ⟨.inr (.inr hexcuses), hexcuses⟩
  | silent => exact ⟨.inr (.inr hasks), trivial⟩

theorem update (h : run.Scanned rules) {index : Nat} {question : MergeSlot.Question}
    {wall : Instant} {slot : MergeSlot} {next : MergeSlot × Option MergeSlot.Question}
    (hcontrol : run.control = .updating index question wall)
    (hslot : run.here.view.slots[index]? = some slot) (hupdated : slot.Updated question next) :
    Scanned rules { run.see (run.here.view.set index next.1) with
      control := goOn index wall next.2 } := by
  obtain ⟨hcovers, hasks⟩ := h.covers_update hcontrol hslot hupdated
  have hgo : ∃ place question, goOn index wall next.2 = .updating place question wall ∧
      place ≤ index + 1 := by
    cases next.2 with
    | none => exact ⟨_, _, rfl, Nat.le_refl _⟩
    | some question => exact ⟨_, _, rfl, Nat.le_succ _⟩
  obtain ⟨place, question', hgo, hplace⟩ := hgo
  refine {
    start := fun waits hwaits => by
      rw [show Control.waits? _ = none by rw [hgo]; rfl] at hwaits
      cases hwaits
    waits := fun waits hwaits => by
      rw [show Control.waits? _ = none by rw [hgo]; rfl] at hwaits
      cases hwaits
    surveyed := fun count waits hsurvey => by
      rw [show Run.control _ = _ from hgo] at hsurvey
      cases hsurvey
    covers := ?_
    asks := hasks
    stands := fun count hchoosing => by
      rw [show Run.control _ = _ from hgo] at hchoosing
      cases hchoosing }
  intro other found hfound
  rcases set_cases hfound with ⟨rfl, rfl⟩ | ⟨hne, hfound⟩
  · exact hcovers
  · have hother := h.covers other found hfound
    rw [hcontrol] at hother
    show (goOn index wall next.2).Covers _ _ _ _
    rw [hgo]
    exact hother.imp_right (Or.imp_left fun hend => ⟨by omega, hend.2⟩)

theorem resume (h : run.Scanned rules) (haccounted : run.Accounted) {index : Nat}
    {question : MergeSlot.Question} {wall : Instant}
    (hcontrol : run.control = .updating index question wall)
    (hnone : run.here.view.slots[index]? = none) :
    Scanned rules { run with control := .choosing 0, looks := fun _ => run.here } where
  start := nofun
  waits := nofun
  surveyed := nofun
  covers place slot hslot := by
    have hcovers := h.covers place slot hslot
    rw [hcontrol] at hcovers
    refine hcovers.imp_right fun hrest => hrest.resolve_left ?_
    rintro ⟨hle, -⟩
    exact absurd (lt_of_slots hnone hslot) (Nat.not_lt.mpr hle)
  asks := trivial
  stands count hchoosing place := by
    obtain rfl := Control.choosing.inj hchoosing
    have hworking : run.control ≠ .finished := hcontrol ▸ nofun
    exact {
      precedes := .of_writers rfl rfl
      sound := haccounted.sound hworking
      balanced := haccounted.balanced_sent hworking (hcontrol ▸ rfl)
      places := rfl
      shown := fun hlt => absurd hlt (Nat.not_lt_zero _) }

theorem look (h : run.Scanned rules) (haccounted : run.Accounted) {index : Nat} {slot : MergeSlot}
    (hcontrol : run.control = .choosing index)
    (hslot : run.here.view.slots[index]? = some slot) :
    Scanned rules { run.see (run.here.view.set index slot.fill) with
      control := .choosing (index + 1)
      looks := Function.update run.looks index (run.here.look index slot) } where
  start := nofun
  waits := nofun
  surveyed := nofun
  covers place found hfound := by
    rcases set_cases hfound with ⟨rfl, rfl⟩ | ⟨-, hfound⟩
    · have hcovers := h.covers place slot hslot
      rw [hcontrol] at hcovers
      exact hcovers.imp_left .fill
    · have hcovers := h.covers place found hfound
      rw [hcontrol] at hcovers
      exact hcovers
  asks := trivial
  stands count hchoosing place := by
    obtain rfl := Control.choosing.inj hchoosing
    have hworking : run.control ≠ .finished := hcontrol ▸ nofun
    have hbalanced := haccounted.balanced_sent hworking (hcontrol ▸ rfl)
    show Moment.Stands (Function.update run.looks index _ place) _ _ _ _
    by_cases hplace : place = index
    · rw [hplace, Function.update_self]
      exact Moment.stands_look (haccounted.sound hworking) hbalanced hslot
    · rw [Function.update_of_ne hplace]
      exact (h.stands index hcontrol place).look hplace hslot

theorem begin (haccounted : run.Accounted) (hcontrol : run.control = .top) :
    Scanned rules { run with
      control := .surveying 0 []
      round := ⟨fun _ => run.here, []⟩
      earlier := run.earlier ++ [run.round] } where
  start _ _ _ := haccounted.balanced_sent (hcontrol ▸ nofun) (hcontrol ▸ rfl)
  waits waits hwaits wait hwait := by
    obtain rfl := Option.some.inj hwaits
    cases hwait
  surveyed count waits hsurvey := by
    obtain ⟨-, rfl⟩ := Control.surveying.inj hsurvey
    exact ⟨rfl, nofun⟩
  covers index slot _ := fun hlt => absurd hlt (Nat.not_lt_zero _)
  asks := trivial
  stands := nofun

/-- A partition that has been looked at has something at hand or has met its end, or its wait is noted,
or its state does not allow a wait. -/
theorem surveyed_covers {here : Moment} {index : Nat} {slot : MergeSlot}
    (hslot : here.view.slots[index]? = some slot) (round : Round) :
    slot.fill.Settled ∨ slot.fill.source.exhausted = true ∨
      (∃ wait ∈ (waitFor? rules here.view.now index slot.fill).toList, wait.slot = index) ∨
      (round.come index (here.look index slot)).Excuses rules index := by
  by_cases hsettled : slot.fill.Settled
  · exact .inl hsettled
  by_cases hend : slot.fill.source.exhausted = true
  · exact .inr (.inl hend)
  refine .inr (.inr ?_)
  cases htimeout : slot.fill.timeout? rules with
  | none => exact .inr (Round.come_excuses (look_slot hslot) htimeout)
  | some timeout =>
      simp only [MergeSlot.Settled, not_or, Bool.not_eq_true, Option.isSome_eq_false_iff,
        Option.isNone_iff_eq_none] at hsettled hend
      have hwait : waitFor? rules here.view.now index slot.fill =
          some ⟨index, pauseEnd here.view.now timeout⟩ :=
        wait_for_some.mpr ⟨timeout, hsettled.1, hsettled.2, hend, htimeout, rfl⟩
      exact .inl ⟨_, Option.mem_toList.mpr hwait, rfl⟩

theorem survey (h : run.Scanned rules) (haccounted : run.Accounted) {index : Nat}
    {waits : List Wait} {slot : MergeSlot} (hcontrol : run.control = .surveying index waits)
    (hslot : run.here.view.slots[index]? = some slot) :
    Scanned rules { run.see (run.here.view.set index slot.fill) with
      control := .surveying (index + 1)
        (waits ++ (waitFor? rules run.here.view.now index slot.fill).toList)
      round := run.round.come index (run.here.look index slot) } := by
  have hworking : run.control ≠ .finished := hcontrol ▸ nofun
  obtain ⟨hsilences, hplaces⟩ := h.surveyed index waits hcontrol
  have hnoted : run.control.waits? = some waits := by
    rw [hcontrol]
    rfl
  refine {
    start := fun _ _ => ?_
    waits := ?_
    surveyed := ?_
    covers := ?_
    asks := trivial
    stands := nofun }
  · have hbalanced := haccounted.balanced_sent hworking (hcontrol ▸ rfl)
    exact Round.come_start_all (·.Balanced run.sent) (h.start waits hnoted) (hbalanced.look hslot)
  · intro noted hnoted' wait hwait
    obtain rfl := Option.some.inj hnoted'
    rcases List.mem_append.mp hwait with hwait | hwait
    · exact (h.waits waits hnoted wait hwait).come (Nat.ne_of_lt (hplaces wait hwait))
    · obtain ⟨timeout, -, hhead, -, htimeout, rfl⟩ := wait_for_some.mp (Option.mem_toList.mp hwait)
      have hsound := haccounted.sound hworking slot (List.mem_of_getElem? hslot)
      have hempty : (run.here.look index slot).stock index = [] :=
        (Moment.stock_of_slot (look_slot hslot)).trans (fill_empty hsound hhead)
      exact Round.come_awaits (look_slot hslot) htimeout hempty
  · intro count noted hsurvey
    obtain ⟨rfl, rfl⟩ := Control.surveying.inj hsurvey
    refine ⟨hsilences, fun wait hwait => ?_⟩
    rcases List.mem_append.mp hwait with hwait | hwait
    · exact Nat.lt_succ_of_lt (hplaces wait hwait)
    · obtain ⟨timeout, -, -, -, -, rfl⟩ := wait_for_some.mp (Option.mem_toList.mp hwait)
      exact Nat.lt_succ_self _
  · intro place found hfound hplace
    rcases set_cases hfound with ⟨rfl, rfl⟩ | ⟨hne, hfound⟩
    · refine (surveyed_covers hslot run.round).imp_right (Or.imp_right (Or.imp_left ?_))
      rintro ⟨wait, hwait, hwaited⟩
      exact ⟨wait, List.mem_append_right _ hwait, hwaited⟩
    · have hcovers := h.covers place found hfound
      rw [hcontrol] at hcovers
      rcases hcovers (by omega) with hsettled | hend | ⟨wait, hwait, hwaited⟩ | hexcuses
      · exact .inl hsettled
      · exact .inr (.inl hend)
      · exact .inr (.inr (.inl ⟨wait, List.mem_append_left _ hwait, hwaited⟩))
      · exact .inr (.inr (.inr (hexcuses.come hne)))

/-- A wait that is over without a batch, though more could come, was kept up to its deadline. -/
theorem settle_kept (h : run.Scanned rules) (haccounted : run.Accounted) {waits : List Wait}
    {wait : Wait} {slots : List MergeSlot} {slot : MergeSlot} (hcontrol : run.control = .filling waits)
    (hwait : wait ∈ waits) (hpoll : pollSlot? run.here.view wait = some slots)
    (hslot : slots[wait.slot]? = some slot) (hhead : slot.source.head = none)
    (hend : slot.source.exhausted = false) (hcancelled : run.here.view.cancelled = false) :
    run.round.Kept rules
      ⟨wait.slot, ⟨{ run.here.view with slots }, run.here.pushed⟩⟩ := by
  have hworking : run.control ≠ .finished := hcontrol ▸ nofun
  have hbalanced := haccounted.balanced_sent hworking (hcontrol ▸ rfl)
  have hnoted : run.control.waits? = some waits := by
    rw [hcontrol]
    rfl
  have hstock : Moment.stock ⟨{ run.here.view with slots }, run.here.pushed⟩ wait.slot =
      run.here.stock wait.slot :=
    Moment.stock_congr (poll_slot_refills hpoll).stocks wait.slot
  obtain ⟨first, timeout, hfirst, htimeout, hempty, hdeadline⟩ := h.waits waits hnoted wait hwait
  rcases poll_slot_cases hpoll with ⟨hmissing, rfl⟩ | ⟨now, ready, source, hnow, hover, rfl⟩
  · rw [hmissing] at hslot
    cases hslot
  rw [List.getElem?_set_self (List.getElem?_eq_some_iff.mp hnow).1, Option.some.injEq] at hslot
  subst hslot
  rcases PartitionSource.continue_wait_cases hover with ⟨hyes, -⟩ | ⟨-, rfl, hsome | hyes | hdue⟩
  · rw [hcancelled] at hyes
    cases hyes
  · rw [show now.source.fill.head = none from hhead] at hsome
    cases hsome
  · rw [show now.source.fill.exhausted = false from hend] at hyes
    cases hyes
  · have hsound := (haccounted.sound hworking now (List.mem_of_getElem? hnow)).source
    have hnothing : run.here.stock wait.slot = [] := by
      rw [Moment.stock_of_slot hnow, ← now.source.fill_stock]
      exact now.source.fill_filled.stock_nil hsound hhead
    refine ⟨first, timeout, hfirst, htimeout, hempty, ?_, hstock.trans hnothing, ?_⟩
    · -- Nothing has been sent in this round, so nothing has been pushed to an empty partition.
      show run.here.pushed wait.slot = _
      rw [hbalanced, h.start waits hnoted wait.slot, hnothing, hempty]
    · rw [← hdeadline]
      exact hdue

theorem settle (h : run.Scanned rules) {waits : List Wait} {wait : Wait} {slots : List MergeSlot}
    (hcontrol : run.control = .filling waits) (hpoll : pollSlot? run.here.view wait = some slots) :
    Scanned rules { run.see { run.here.view with slots } with
      control := .filling (waits.erase wait)
      round := { run.round with
        silences := run.round.silences ++
          Moment.silences ⟨{ run.here.view with slots }, run.here.pushed⟩ waits
            (waits.erase wait) } } where
  start _ _ := h.start waits (by rw [hcontrol]; rfl)
  waits rest hrest other hother := by
    obtain rfl := Option.some.inj hrest
    exact h.waits waits (by rw [hcontrol]; rfl) other (List.mem_of_mem_erase hother)
  surveyed := nofun
  covers index slot hslot := by
    obtain ⟨first, source, hfirst, hrefills, rfl⟩ := poll_slot_origin hpoll hslot
    have hcovers := h.covers index first hfirst
    rw [hcontrol] at hcovers
    rcases hcovers with (hclosed | hhead) | hend | ⟨other, hother, rfl⟩ | hexcuses
    · exact .inl (.inl hclosed)
    · obtain ⟨batch, hhead⟩ := Option.isSome_iff_exists.mp hhead
      exact .inl (.inr (by rw [hrefills.head hhead, Option.isSome_some]))
    · exact .inr (.inl (hrefills.exhausted hend))
    · -- The partition was waited for: the wait goes on, or it is over with a batch, or with the end
      -- of the channel, or in vain.
      by_cases hstill : other ∈ waits.erase wait
      · exact .inr (.inr (.inl ⟨other, hstill, rfl⟩))
      cases hhead : source.head with
      | some batch => exact .inl (.inr (by rw [hhead, Option.isSome_some]))
      | none =>
          cases hend : source.exhausted with
          | true => exact .inr (.inl hend)
          | false =>
              have hsilence : (⟨other.slot, ⟨{ run.here.view with slots }, run.here.pushed⟩⟩ :
                  Silence) ∈ Moment.silences ⟨{ run.here.view with slots }, run.here.pushed⟩
                    waits (waits.erase wait) :=
                mem_silences.mpr ⟨other, _, hother, hstill, hslot, hhead, hend, rfl⟩
              exact .inr (.inr (.inr (.inr ⟨_, List.mem_append_right _ hsilence, rfl⟩)))
    · refine .inr (.inr (.inr (hexcuses.imp_right ?_)))
      rintro ⟨silence, hsilence, hindex⟩
      exact ⟨silence, List.mem_append_left _ hsilence, hindex⟩
  asks := trivial
  stands := nofun

/-- A partition that was looked at holds the head that is compared, or nothing. -/
theorem looked_head (h : run.Scanned rules) {count index : Nat}
    (hcontrol : run.control = .choosing count) (hnone : run.here.view.slots[count]? = none)
    {seen : MergeSlot} (hseen : (run.looks index).view.slots[index]? = some seen) :
    ∃ slot, run.here.view.slots[index]? = some slot ∧ seen.closed = slot.closed ∧
      seen.source.head = slot.source.head ∧
      (seen.source.head = none → seen.source.stock.batches = []) := by
  have hstands := h.stands count hcontrol index
  have hlt := (List.getElem?_eq_some_iff.mp hseen).1
  rw [hstands.places] at hlt
  have hslot := List.getElem?_eq_getElem hlt
  obtain ⟨found, hfound, hrest⟩ := hstands.shown (lt_of_slots hnone hslot) _ hslot
  obtain rfl := Option.some.inj (hseen.symm.trans hfound)
  exact ⟨_, hslot, hrest⟩

/-- Something happens that the merge does not do. -/
theorem outside (h : run.Scanned rules) {here : Moment} (received : List MessageBatch)
    (hprecedes : run.here.Precedes here)
    (hlength : here.view.slots.length = run.here.view.slots.length)
    (hslots : ∀ (index : Nat) (slot : MergeSlot), here.view.slots[index]? = some slot → ∃ first,
      run.here.view.slots[index]? = some first ∧ slot.closed = first.closed ∧
        slot.source.head = first.source.head ∧ slot.source.exhausted = first.source.exhausted) :
    Scanned rules { run with here, received } where
  start := h.start
  waits := h.waits
  surveyed := h.surveyed
  covers index slot hslot := by
    obtain ⟨first, hfirst, hclosed, hhead, hend⟩ := hslots index slot hslot
    have hcovers := h.covers index first hfirst
    simp only [Control.Covers, MergeSlot.Settled] at hcovers ⊢
    rw [hclosed, hhead, hend]
    exact hcovers
  asks := by
    have hasks := h.asks
    simp only [Control.Asks, MergeSlot.Settled] at hasks ⊢
    split
    next index wall hcontrol =>
      intro slot hslot
      obtain ⟨first, hfirst, hclosed, hhead, -⟩ := hslots index slot hslot
      rw [hcontrol] at hasks
      rw [hclosed, hhead]
      exact hasks first hfirst
    next index wall hcontrol =>
      rw [hcontrol] at hasks
      exact hasks
    next => trivial
  stands count hcontrol index := by
    refine (h.stands count hcontrol index).later hprecedes hlength fun slot hslot => ?_
    obtain ⟨first, hfirst, hclosed, hhead, -⟩ := hslots index slot hslot
    exact ⟨first, hfirst, hclosed, hhead⟩

end Scanned

end Run

end Merge

end WindowJoin
