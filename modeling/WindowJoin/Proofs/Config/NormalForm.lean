import WindowJoin.Config.Document
import WindowJoin.Proofs.Checkpoint.RoundTrip

/-!
# Configurations read back

A document may leave settings out, name them in any order, hold other keys, or be an array. The
configuration that is read from it is written as an object that names all settings, and this is
read back as the same configuration (`Config.of_json_to_json`), as long as no collector of traces is
named.

Two facts about each setting carry this. What it reads keeps the numbers of the configuration within
the ranges of their kinds (`Setting.Keeps`), and in these ranges what it writes is what it reads
(`Setting.Copies`).
-/

namespace WindowJoin

namespace Json

/-- What every entry of an object keeps is kept by the object. -/
theorem read_entries_keeps {σ : Type} (Kept : σ → Prop)
    {entry : σ → String → List UInt8 → Except Fault (σ × List UInt8)}
    (hentry : ∀ {state key bytes next rest}, Kept state →
      entry state key bytes = .ok (next, rest) → Kept next)
    {budget bytes rest : List UInt8} {first : Bool} {state final : σ} (hstate : Kept state)
    (hread : readEntries entry budget first state bytes = .ok (final, rest)) : Kept final := by
  induction budget generalizing first state bytes with
  | nil => cases hread
  | cons unit budget ih =>
      obtain ⟨⟨content, after⟩, -, hread⟩ := except_bind_ok hread
      cases content with
      | none =>
          cases hread
          exact hstate
      | some content =>
          obtain ⟨⟨key, after⟩, -, hread⟩ := except_bind_ok hread
          obtain ⟨⟨next, after⟩, hnext, hread⟩ := except_bind_ok hread
          exact ih (hentry hstate hnext) hread

theorem read_object_keeps {σ : Type} (Kept : σ → Prop)
    {entry : σ → String → List UInt8 → Except Fault (σ × List UInt8)}
    (hentry : ∀ {state key bytes next rest}, Kept state →
      entry state key bytes = .ok (next, rest) → Kept next)
    {bytes rest : List UInt8} {start final : σ} (hstart : Kept start)
    (hread : readObject entry start bytes = .ok (final, rest)) : Kept final := by
  unfold readObject at hread
  split at hread
  · cases hread
  · split at hread
    · exact read_entries_keeps Kept hentry hstart hread
    · cases hread

/-- A number that is read is within its bound. -/
theorem read_nat_le {bound value : Nat} {bytes rest : List UInt8}
    (h : readNat bound bytes = .ok (value, rest)) : value ≤ bound := by
  obtain ⟨⟨number, after⟩, hread, hvalue⟩ := except_bind_ok h
  cases hvalue
  obtain ⟨⟨number, after⟩, -, hread⟩ := except_bind_ok hread
  cases number with
  | real => cases hread
  | integer number =>
      dsimp only at hread
      split at hread
      next hrange =>
        cases hread
        omega
      next => cases hread

/-- A number within its bound is read back. -/
theorem read_nat_nat {bound value : Nat} (hbound : bound ≤ significandLimit) (h : value ≤ bound)
    {rest : List UInt8} (hrest : Delimited rest) :
    readNat bound (nat value ++ rest) = .ok (value, rest) := by
  rw [readNat, nat, read_integer_decimal (by omega) (by omega) (by omega) (by omega) hrest]
  rfl

/-- A truth value is read back. -/
theorem read_bool_bool_word (value : Bool) (rest : List UInt8) :
    readBool (boolWord value ++ rest) = .ok (value, rest) := by
  cases value <;> rfl

/-- What is read in the place of a null is what the value is. -/
theorem read_optional_some {α : Type} {read : List UInt8 → Except Fault (α × List UInt8)}
    {bytes rest : List UInt8} {value : α}
    (h : readOptional read bytes = .ok (some value, rest)) :
    ∃ bytes, read bytes = .ok (value, rest) := by
  unfold readOptional at h
  split at h
  · obtain ⟨⟨value, after⟩, hread, hvalue⟩ := except_bind_ok h
    cases hvalue
    exact ⟨_, hread⟩
  · split at h
    · obtain ⟨⟨word, after⟩, -, hvalue⟩ := except_bind_ok h
      cases hvalue
    · obtain ⟨⟨value, after⟩, hread, hvalue⟩ := except_bind_ok h
      cases hvalue
      exact ⟨_, hread⟩

theorem read_port_le {bytes rest : List UInt8} {value : Option Nat}
    (h : readOptional (readNat 0xFFFF) bytes = .ok (value, rest)) :
    ∀ port ∈ value, port ≤ 0xFFFF := by
  rintro port rfl
  obtain ⟨bytes, hread⟩ := read_optional_some h
  exact read_nat_le hread

end Json

open Json

/-! ## The ranges of the numbers -/

/-- The numbers of a configuration are in the ranges of their kinds. -/
structure Config.InRange (config : Config) : Prop where
  joinWindow : config.joinWindow ≤ 0xFFFFFFFFFFFFFFFF
  punctuationSlack : config.punctuationSlack ≤ 0xFFFFFFFFFFFFFFFF
  punctuationTimeout : config.punctuationTimeout ≤ 0xFFFFFFFFFFFFFFFF
  punctuationInterval : config.punctuationInterval ≤ 0xFFFFFFFFFFFFFFFF
  activeReadTimeout : config.activeReadTimeout ≤ 0xFFFFFFFFFFFFFFFF
  historicalReadTimeout : config.historicalReadTimeout ≤ 0xFFFFFFFFFFFFFFFF
  historicalThreshold : config.historicalThreshold ≤ 0xFFFFFFFFFFFFFFFF
  receiveTimeout : config.receiveTimeout ≤ 0xFFFFFFFFFFFFFFFF
  receiveBatchSize : config.receiveBatchSize ≤ 0xFFFFFFFFFFFFFFFF
  maxReceiveRetries : config.maxReceiveRetries ≤ 0xFFFFFFFF
  startupTimeout : config.startupTimeout ≤ 0xFFFFFFFFFFFFFFFF
  partitionQueueCapacity : config.partitionQueueCapacity ≤ 0xFFFFFFFFFFFFFFFF
  mergeOutputCapacity : config.mergeOutputCapacity ≤ 0xFFFFFFFFFFFFFFFF
  joinOutputCapacity : config.joinOutputCapacity ≤ 0xFFFFFFFFFFFFFFFF
  interactionWaitTimeout : config.interactionWaitTimeout ≤ 0xFFFFFFFFFFFFFFFF
  checkpointInterval : config.checkpointInterval ≤ 0xFFFFFFFFFFFFFFFF
  storageMaxAttempts : config.storageMaxAttempts ≤ 0xFFFFFFFF
  metricsPort : ∀ port ∈ config.metricsPort, port ≤ 0xFFFF

namespace Setting

/-- A setting that is read keeps the configuration in range. -/
def Keeps (setting : Setting) : Prop :=
  ∀ config bytes result rest, config.InRange → setting.read config bytes = .ok (result, rest) →
    result.InRange

/-- A setting leaves the configuration as a change makes it, where it reads what it has written of
another configuration. -/
def Copies (setting : Setting) (target : Config) (change : Config → Config) : Prop :=
  ∀ config rest, Delimited rest →
    setting.read config (setting.write target ++ rest) = .ok (change config, rest)

section kinds

variable {α : Type} {key : String} {target : Config}

/-- A setting keeps the configuration in range if it does so with the values that can be read. -/
theorem Keeps.fitting {get : Config → α} {put : α → Config → Config}
    {readValue : List UInt8 → Except Fault (α × List UInt8)} {writeValue : α → List UInt8}
    (Fits : α → Prop)
    (hfits : ∀ {bytes value rest}, readValue bytes = .ok (value, rest) → Fits value)
    (hput : ∀ value config, Fits value → config.InRange → (put value config).InRange) :
    (of key readValue writeValue get put).Keeps := by
  intro config bytes result rest hconfig hread
  obtain ⟨⟨value, after⟩, hvalue, hresult⟩ := except_bind_ok hread
  cases hresult
  exact hput value config (hfits hvalue) hconfig

/-- A setting that is no number keeps the configuration in range. -/
theorem Keeps.any {get : Config → α} {put : α → Config → Config}
    {readValue : List UInt8 → Except Fault (α × List UInt8)} {writeValue : α → List UInt8}
    (hput : ∀ value config, config.InRange → (put value config).InRange) :
    (of key readValue writeValue get put).Keeps :=
  .fitting (fun _ => True) (fun _ => trivial) fun value config _ => hput value config

theorem Keeps.word {get : Config → Nat} {put : Nat → Config → Config}
    (hput : ∀ value config, value ≤ 0xFFFFFFFFFFFFFFFF → config.InRange →
      (put value config).InRange) : (ofWord key get put).Keeps :=
  .fitting _ read_nat_le hput

theorem Keeps.count {get : Config → Nat} {put : Nat → Config → Config}
    (hput : ∀ value config, value ≤ 0xFFFFFFFF → config.InRange → (put value config).InRange) :
    (ofCount key get put).Keeps :=
  .fitting _ read_nat_le hput

/-- A setting copies its value if the value is read back. -/
theorem Copies.value {get : Config → α} {put : α → Config → Config}
    {readValue : List UInt8 → Except Fault (α × List UInt8)} {writeValue : α → List UInt8}
    (h : ∀ {rest}, Delimited rest →
      readValue (writeValue (get target) ++ rest) = .ok (get target, rest)) :
    (of key readValue writeValue get put).Copies target (put (get target)) := by
  intro config rest hrest
  show (readValue (writeValue (get target) ++ rest)).bind
    (fun read => .ok (put read.1 config, read.2)) = _
  rw [h hrest]
  rfl

theorem Copies.text {get : Config → String} {put : String → Config → Config} :
    (ofText key get put).Copies target (put (get target)) :=
  .value fun _ => read_text_quoted _ _

theorem Copies.bool {get : Config → Bool} {put : Bool → Config → Config} :
    (ofBool key get put).Copies target (put (get target)) :=
  .value fun _ => read_bool_bool_word _ _

theorem Copies.word {get : Config → Nat} {put : Nat → Config → Config}
    (h : get target ≤ 0xFFFFFFFFFFFFFFFF) : (ofWord key get put).Copies target (put (get target)) :=
  .value fun hrest => read_nat_nat (Nat.le_refl _) h hrest

theorem Copies.count {get : Config → Nat} {put : Nat → Config → Config}
    (h : get target ≤ 0xFFFFFFFF) : (ofCount key get put).Copies target (put (get target)) :=
  .value fun hrest => read_nat_nat (by decide) h hrest

end kinds

end Setting

namespace Config

theorem default_in_range : ({} : Config).InRange := by
  constructor <;> simp

/-- No setting leaves the ranges. -/
theorem settings_keep : ∀ setting ∈ settings, setting.Keeps := by
  simp only [settings, List.forall_mem_cons]
  exact ⟨.any fun _ _ h => { h with },
    .any fun _ _ h => { h with },
    .word fun _ _ hvalue h => { h with joinWindow := hvalue },
    .word fun _ _ hvalue h => { h with punctuationSlack := hvalue },
    .any fun _ _ h => { h with },
    .word fun _ _ hvalue h => { h with punctuationTimeout := hvalue },
    .word fun _ _ hvalue h => { h with punctuationInterval := hvalue },
    .word fun _ _ hvalue h => { h with activeReadTimeout := hvalue },
    .word fun _ _ hvalue h => { h with historicalReadTimeout := hvalue },
    .word fun _ _ hvalue h => { h with historicalThreshold := hvalue },
    .word fun _ _ hvalue h => { h with receiveTimeout := hvalue },
    .word fun _ _ hvalue h => { h with receiveBatchSize := hvalue },
    .count fun _ _ hvalue h => { h with maxReceiveRetries := hvalue },
    .word fun _ _ hvalue h => { h with startupTimeout := hvalue },
    .word fun _ _ hvalue h => { h with partitionQueueCapacity := hvalue },
    .word fun _ _ hvalue h => { h with mergeOutputCapacity := hvalue },
    .word fun _ _ hvalue h => { h with joinOutputCapacity := hvalue },
    .word fun _ _ hvalue h => { h with interactionWaitTimeout := hvalue },
    .any fun _ _ h => { h with },
    .any fun _ _ h => { h with },
    .word fun _ _ hvalue h => { h with checkpointInterval := hvalue },
    .any fun _ _ h => { h with },
    .any fun _ _ h => { h with },
    .count fun _ _ hvalue h => { h with storageMaxAttempts := hvalue },
    .fitting (fun value => ∀ port ∈ value, port ≤ 0xFFFF) read_port_le
      fun _ _ hvalue h => { h with metricsPort := hvalue },
    .any fun _ _ h => { h with },
    .any fun _ _ h => { h with },
    nofun⟩

/-- The elements of an array are read within the ranges. -/
theorem read_elements_in_range {later : List Setting} (hkeep : ∀ setting ∈ later, setting.Keeps)
    {first : Bool} {config result : Config} {bytes rest : List UInt8} (h : config.InRange)
    (hread : readElements later first config bytes = .ok (result, rest)) : result.InRange := by
  induction later generalizing first config bytes with
  | nil =>
      cases hread
      exact h
  | cons setting later ih =>
      obtain ⟨element, -, hread⟩ := except_bind_ok hread
      cases element with
      | none =>
          cases hread
          exact h
      | some element =>
          obtain ⟨⟨next, after⟩, hnext, hread⟩ := except_bind_ok hread
          exact ih (fun other hother => hkeep other (List.mem_cons_of_mem _ hother))
            (hkeep setting List.mem_cons_self _ _ _ _ h hnext) hread

theorem read_entry_in_range {draft next : Draft} {key : String} {bytes rest : List UInt8}
    (h : draft.config.InRange) (hread : readEntry draft key bytes = .ok (next, rest)) :
    next.config.InRange := by
  unfold readEntry at hread
  split at hread
  · -- An unknown key changes nothing.
    obtain ⟨after, -, hread⟩ := except_bind_ok hread
    obtain ⟨rest, -, hread⟩ := except_bind_ok hread
    cases hread
    exact h
  next setting hsetting =>
    split at hread
    · cases hread
    · obtain ⟨after, -, hread⟩ := except_bind_ok hread
      obtain ⟨⟨config, rest⟩, hconfig, hread⟩ := except_bind_ok hread
      cases hread
      exact settings_keep setting (List.mem_of_find?_eq_some hsetting) _ _ _ _ h hconfig

/-- Whatever is read is within the ranges. -/
theorem read_in_range {config : Config} {bytes rest : List UInt8}
    (h : read bytes = .ok (config, rest)) : config.InRange := by
  unfold read at h
  split at h
  · cases h
  · split at h
    · obtain ⟨⟨config, after⟩, hread, h⟩ := except_bind_ok h
      obtain ⟨rest, -, h⟩ := except_bind_ok h
      cases h
      exact read_elements_in_range settings_keep default_in_range hread
    · obtain ⟨⟨draft, after⟩, hread, h⟩ := except_bind_ok h
      cases h
      exact read_object_keeps (·.config.InRange) read_entry_in_range default_in_range hread

/-! ## Documents that name all settings -/

/-- Each setting copies its own part of a configuration, and all of them make the configuration. -/
theorem settings_copy {config : Config} (h : config.InRange) (hplain : config.tracing = none) :
    ∃ changes, List.Forall₂ (fun setting change => setting.Copies config change) settings changes ∧
      changes.foldl (fun target change => change target) {} = config := by
  refine ⟨_, .cons .text <| .cons .text <| .cons (.word h.joinWindow) <|
    .cons (.word h.punctuationSlack) <| .cons .bool <| .cons (.word h.punctuationTimeout) <|
    .cons (.word h.punctuationInterval) <| .cons (.word h.activeReadTimeout) <|
    .cons (.word h.historicalReadTimeout) <| .cons (.word h.historicalThreshold) <|
    .cons (.word h.receiveTimeout) <| .cons (.word h.receiveBatchSize) <|
    .cons (.count h.maxReceiveRetries) <| .cons (.word h.startupTimeout) <|
    .cons (.word h.partitionQueueCapacity) <| .cons (.word h.mergeOutputCapacity) <|
    .cons (.word h.joinOutputCapacity) <| .cons (.word h.interactionWaitTimeout) <|
    .cons (.value fun {rest} _ => ?_) <| .cons .bool <| .cons (.word h.checkpointInterval) <|
    .cons .text <| .cons .text <| .cons (.count h.storageMaxAttempts) <|
    .cons (.value fun {rest} hrest => ?_) <| .cons (.value fun {rest} _ => ?_) <|
    .cons (.value fun {rest} _ => ?_) .nil, rfl⟩
  · exact read_optional_optional instant_cons fun time _ => read_instant_instant time rest
  · exact read_optional_optional (fun port : Nat => decimal_cons port)
      fun port hport => read_nat_nat (by decide) (h.metricsPort port hport) hrest
  · exact read_optional_optional (fun _ => ⟨_, _, rfl, by decide, by decide⟩)
      fun level _ => read_text_quoted level rest
  · rw [hplain]
    rfl

theorem keys_nodup : (settings.map (·.key)).Nodup := by
  decide

/-- An entry that names the setting that is next changes the configuration as the setting does. -/
theorem read_entry_next {earlier later : List Setting} {setting : Setting}
    (hsettings : settings = earlier ++ setting :: later) (config : Config) {next : Config}
    {value rest : List UInt8} (hread : setting.read config (value ++ rest) = .ok (next, rest)) :
    readEntry ⟨(earlier.map (·.key)).reverse, config⟩ setting.key
        (byteOf ':' :: value ++ rest) =
      .ok (⟨((earlier ++ [setting]).map (·.key)).reverse, next⟩, rest) := by
  have hnodup := keys_nodup
  rw [hsettings, List.map_append, List.nodup_append] at hnodup
  have hother : ∀ other ∈ earlier, other.key ≠ setting.key := fun other hother =>
    hnodup.2.2 _ (List.mem_map_of_mem hother) _ (List.mem_map_of_mem List.mem_cons_self)
  have hfind : settings.find? (·.key = setting.key) = some setting := by
    rw [hsettings, List.find?_eq_some_iff_append]
    exact ⟨by simp, earlier, later, rfl, fun other hmem => by simp [hother other hmem]⟩
  have hnew : setting.key ∉ (earlier.map (·.key)).reverse := by
    rw [List.mem_reverse, List.mem_map]
    rintro ⟨other, hmem, heq⟩
    exact hother other hmem heq
  have hcolon : afterColon (byteOf ':' :: value ++ rest) = .ok (value ++ rest) := rfl
  rw [readEntry, hfind]
  simp only [hnew, if_false, hcolon, bind, Except.bind, hread, List.map_append, List.map_cons,
    List.map_nil, List.reverse_append, List.reverse_cons, List.reverse_nil, List.nil_append,
    List.singleton_append]

/-- The induction is on the settings that are still to come. -/
theorem entries_copy {target : Config} {later : List Setting} {changes : List (Config → Config)}
    (hcopies : List.Forall₂ (fun setting change => setting.Copies target change) later changes) :
    ∀ (earlier : List Setting) (config : Config), settings = earlier ++ later →
      EntriesRead readEntry ⟨(earlier.map (·.key)).reverse, config⟩
        (later.map fun setting => (setting.key, setting.write target))
        ⟨(settings.map (·.key)).reverse,
          changes.foldl (fun config change => change config) config⟩ := by
  induction hcopies with
  | nil =>
      intro earlier config hsettings
      rw [hsettings, List.append_nil]
      exact .nil _
  | @cons setting change later changes hcopy _ ih =>
      intro earlier config hsettings
      refine .cons (fun rest hrest => read_entry_next hsettings config (hcopy config rest hrest)) ?_
      exact ih (earlier ++ [setting]) (change config) (by
        rw [hsettings, List.append_assoc, List.singleton_append])

/-- A configuration in range without a collector of traces is read back. -/
theorem read_to_json {config : Config} (h : config.InRange) (hplain : config.tracing = none) :
    read config.toJson = .ok (config, []) := by
  obtain ⟨changes, hcopies, hconfig⟩ := settings_copy h hplain
  have hentries := entries_copy hcopies [] {} rfl
  rw [hconfig] at hentries
  have hobject : readObject readEntry ⟨[], {}⟩ (config.toJson ++ []) =
      .ok (⟨(settings.map (·.key)).reverse, config⟩, []) := read_object_object hentries []
  rw [List.append_nil] at hobject
  -- What is written starts with a brace, so that it is read as an object.
  have hread : read config.toJson = (readObject readEntry ⟨[], {}⟩ config.toJson).bind
    fun drafted => .ok (drafted.1.config, drafted.2) := rfl
  rw [hread, hobject]
  rfl

/-- What a document gives has been read within the ranges and is valid. -/
theorem of_json_ok {bytes : List UInt8} {config : Config} (h : ofJson bytes = .ok config) :
    config.InRange ∧ config.validate = .ok () := by
  obtain ⟨parsed, hparsed, h⟩ := except_bind_ok h
  obtain ⟨⟨⟩, hvalid, h⟩ := except_bind_ok h
  cases h
  refine ⟨?_, hvalid⟩
  cases hdocument : readDocument read bytes with
  | error fault =>
      rw [hdocument] at hparsed
      cases hparsed
  | ok document =>
      rw [hdocument] at hparsed
      cases hparsed
      obtain ⟨⟨result, rest⟩, hread, hdocument⟩ := except_bind_ok hdocument
      dsimp only at hdocument
      split at hdocument
      · cases hdocument
        exact read_in_range hread
      · cases hdocument

/-- Normal form: the configuration of any document that is accepted and names no collector of traces
is written as a document that gives the same configuration. -/
theorem of_json_to_json {bytes : List UInt8} {config : Config} (h : ofJson bytes = .ok config)
    (hplain : config.tracing = none) : ofJson config.toJson = .ok config := by
  obtain ⟨hrange, hvalid⟩ := of_json_ok h
  have hdocument : readDocument read config.toJson = .ok config := by
    rw [readDocument, read_to_json hrange hplain]
    rfl
  rw [ofJson, hdocument]
  show (config.validate).bind (fun _ => .ok config) = _
  rw [hvalid]
  rfl

/-- Three settings that are out of order, an unknown key, and a date with an offset. -/
def sampleDocument : List UInt8 :=
  Utf8.encode ("\x7b\"metrics_port\": 9000, \"comment\": [true, null], " ++
    "\"warmstart_start_date_time\": \"2023-11-14T23:13:20+01:00\", " ++
    "\"interaction_stream\": \"clicks\"\x7d")

theorem of_json_to_json_sample :
    ∃ config, ofJson sampleDocument = .ok config ∧
      (config.interactionStream = "clicks" ∧ config.metricsPort = some 9000) ∧
      config.tracing = none ∧ ofJson config.toJson = .ok config := by
  have hparsed : (ofJson sampleDocument).toOption.map (fun config =>
      (config.interactionStream, config.metricsPort, config.tracing.isNone)) =
        some ("clicks", some 9000, true) := by decide +kernel
  cases hresult : ofJson sampleDocument with
  | error failure =>
      rw [hresult] at hparsed
      cases hparsed
  | ok config =>
      rw [hresult] at hparsed
      obtain ⟨hstream, hrest⟩ := Prod.mk.inj (Option.some.inj hparsed)
      obtain ⟨hport, hnone⟩ := Prod.mk.inj hrest
      have hplain : config.tracing = none := Option.isNone_iff_eq_none.mp hnone
      exact ⟨config, rfl, ⟨hstream, hport⟩, hplain, of_json_to_json hresult hplain⟩

end Config

end WindowJoin
