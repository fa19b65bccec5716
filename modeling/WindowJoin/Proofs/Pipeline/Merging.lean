import WindowJoin.Proofs.Pipeline.Lane

/-!
# The lanes of a stream come together

A merge moves batches about in its sources, pops one at a time, and sends it on. `Merge.Move` says
what one transition does with the batches (`Merge.transitions_move`); it follows that a merge keeps
all its lanes and sends what it has popped, in order (`Merge.Move.keeps`).
-/

namespace WindowJoin

namespace Merge

/-- The batch that a merge has popped and not sent. -/
def held : Option Control → List MessageBatch
  | some (.sending batch) => [batch]
  | _ => []

/-- What a transition does with the batches: it leaves them where they are, pops one, sends it on, or
ends the merge. -/
inductive Move (control : Control) (view : View) : Control × View → Prop where
  | wait {next : Control} {slots : List MergeSlot} :
      control ≠ .finished → held (some control) = [] → held (some next) = [] →
      stocksOf slots = stocksOf view.slots → Move control view (next, { view with slots })
  | pop {count index : Nat} {stock : Stock} {batch : MessageBatch} {rest : List MessageBatch}
      {slots : List MergeSlot} : control = .choosing count →
      (stocksOf view.slots)[index]? = some stock → stock.batches = batch :: rest →
      stocksOf slots = (stocksOf view.slots).set index { stock with batches := rest } →
      Move control view (.sending batch, { view with slots })
  | send {batch : MessageBatch} {output : Channel MessageBatch} : control = .sending batch →
      view.output.send batch = .sent output → Move control view (.top, { view with output })
  | finish : Move control view (finish view)

variable {rules : MergeRules} {control : Control} {view : View} {next : Control × View}

/-- Every transition of a merge is a move. -/
theorem transitions_move (h : next ∈ transitions rules control view) : Move control view next := by
  cases transitions_turn h with
  | begin hcontrol | await hcontrol | review hcontrol | resume hcontrol | idle hcontrol =>
      exact .wait (hcontrol ▸ nofun) (hcontrol ▸ rfl) rfl rfl
  | survey hcontrol hslot | look hcontrol hslot =>
      exact .wait (hcontrol ▸ nofun) (hcontrol ▸ rfl) rfl (look_refills hslot).stocks
  | settle hcontrol _ hpoll | wake hcontrol hpoll =>
      exact .wait (hcontrol ▸ nofun) (hcontrol ▸ rfl) rfl (poll_slot_refills hpoll).stocks
  | @update index question wall slot hcontrol hslot =>
      have hstocks := (update_refills rules wall question hslot).stocks
      generalize slot.update rules wall question = updated at *
      obtain ⟨updated, _ | question⟩ := updated <;>
        exact .wait (hcontrol ▸ nofun) (hcontrol ▸ rfl) rfl hstocks
  | choose hcontrol _ _ hslot hhead =>
      obtain ⟨hbatches, hslots⟩ := pop_stocks hslot (MergeSlot.source_head hhead)
      exact .pop hcontrol (stocks_of_slot hslot) hbatches hslots
  | send hcontrol _ hsend => exact .send hcontrol hsend
  | drain | stop => exact .finish

end Merge

/-! ## Lanes under a merge -/

/-- The lanes of all partitions of a stream, and nothing else, end in a merge. -/
structure Lanes (stream : String) (startOf : String → StartPosition) (transport : Transport)
    (popped : List MessageBatch) (receivers : List Receiver) (stocks : List Stock) : Prop where
  lane {index : Nat} {receiver : Receiver} {stock : Stock} :
    receivers[index]? = some receiver → stocks[index]? = some stock →
      Lane stream startOf transport popped receiver stock
  complete : receivers.length = stocks.length
  distinct : (stocks.map Stock.partition).Nodup
  known : ∀ batch ∈ popped, batch.partition ∈ stocks.map Stock.partition

namespace Lanes

variable {stream : String} {startOf : String → StartPosition} {transport next : Transport}
  {popped : List MessageBatch} {receivers : List Receiver} {stocks : List Stock}

/-- Of every partition, the beginning of what can be decoded has been popped. -/
theorem begins (h : Lanes stream startOf transport popped receivers stocks) (partition : String) :
    ofPartition partition popped <+:
      Wire.decoded ((transport.events stream partition).filter (startOf partition).admits) := by
  by_cases hknown : partition ∈ stocks.map Stock.partition
  · obtain ⟨stock, hstock, rfl⟩ := List.mem_map.mp hknown
    obtain ⟨index, hindex⟩ := List.getElem?_of_mem hstock
    have hlt : index < receivers.length := by
      rw [h.complete]
      exact (List.getElem?_eq_some_iff.mp hindex).1
    exact (h.lane (List.getElem?_eq_getElem hlt) hindex).begins
  · -- What is popped comes from a lane, so nothing is of a partition that has none.
    have hnone : ofPartition partition popped = [] := by
      rw [ofPartition, List.filter_eq_nil_iff]
      intro batch hbatch hpartition
      rw [decide_eq_true_eq] at hpartition
      exact hknown (hpartition ▸ h.known batch hbatch)
    rw [hnone]
    exact List.nil_prefix

theorem step (h : Lanes stream startOf transport popped receivers stocks)
    (hstep : transport.Step next) : Lanes stream startOf next popped receivers stocks where
  lane hreceiver hstock := (h.lane hreceiver hstock).step hstep
  complete := h.complete
  distinct := h.distinct
  known := h.known

theorem congr (h : Lanes stream startOf transport popped receivers stocks)
    (hevents : ∀ stream partition,
      next.events stream partition = transport.events stream partition) :
    Lanes stream startOf next popped receivers stocks where
  lane hreceiver hstock := (h.lane hreceiver hstock).congr hevents
  complete := h.complete
  distinct := h.distinct
  known := h.known

/-- A batch that is in stock bears the name of the partition. -/
theorem partition_of_mem (h : Lanes stream startOf transport popped receivers stocks)
    (hlabelled : transport.Labelled) {index : Nat} {stock : Stock}
    (hstock : stocks[index]? = some stock) {batch : MessageBatch} (hbatch : batch ∈ stock.batches) :
    batch.partition = stock.partition := by
  have hlt : index < receivers.length := by
    rw [h.complete]
    exact (List.getElem?_eq_some_iff.mp hstock).1
  exact (h.lane (List.getElem?_eq_getElem hlt) hstock).partition_of_mem hlabelled hbatch

/-- A lane is replaced by one of the same partition. -/
theorem set (h : Lanes stream startOf transport popped receivers stocks) {index : Nat}
    {receiver : Receiver} {stock after : Stock} (hstock : stocks[index]? = some stock)
    (hpartition : after.partition = stock.partition)
    (hlane : Lane stream startOf transport popped receiver after) :
    Lanes stream startOf transport popped (receivers.set index receiver)
      (stocks.set index after) where
  lane {other reader found} hreceiver hfound := by
    rw [List.getElem?_set] at hreceiver hfound
    split at hreceiver
    next heq =>
      subst heq
      split at hreceiver
      · rw [if_pos rfl, if_pos (List.getElem?_eq_some_iff.mp hstock).1] at hfound
        rw [← Option.some.inj hreceiver, ← Option.some.inj hfound]
        exact hlane
      · cases hreceiver
    next hne =>
      rw [if_neg hne] at hfound
      exact h.lane hreceiver hfound
  complete := by rw [List.length_set, List.length_set, h.complete]
  distinct := by
    rw [map_set_same Stock.partition hstock after hpartition]
    exact h.distinct
  known := by
    rw [map_set_same Stock.partition hstock after hpartition]
    exact h.known

/-- The first batch of a source is popped; for the lanes of other partitions nothing changes. -/
theorem pop (h : Lanes stream startOf transport popped receivers stocks)
    (hlabelled : transport.Labelled) {index : Nat} {stock : Stock} {batch : MessageBatch}
    {rest : List MessageBatch} (hstock : stocks[index]? = some stock)
    (hbatches : stock.batches = batch :: rest) :
    Lanes stream startOf transport (popped ++ [batch]) receivers
      (stocks.set index { stock with batches := rest }) where
  lane {other reader found} hreceiver hfound := by
    rw [List.getElem?_set] at hfound
    split at hfound
    next heq =>
      subst heq
      rw [if_pos (List.getElem?_eq_some_iff.mp hstock).1] at hfound
      rw [← Option.some.inj hfound]
      obtain ⟨partition, batches, readable⟩ := stock
      obtain rfl : batches = batch :: rest := hbatches
      exact (h.lane hreceiver hstock).pop hlabelled
    next hne =>
      -- Another lane that bore the name of the batch would bear the name of this one as well.
      refine (h.lane hreceiver hfound).pass ?_
      intro hsame
      apply hne
      have hlt := (List.getElem?_eq_some_iff.mp hstock).1
      refine (List.getElem?_inj (by rwa [List.length_map]) h.distinct).mp ?_
      rw [List.getElem?_map, List.getElem?_map, hstock, hfound, Option.map_some, Option.map_some,
        ← hsame, h.partition_of_mem hlabelled hstock (hbatches ▸ List.mem_cons_self)]
  complete := by rw [List.length_set, h.complete]
  distinct := by
    rw [map_set_same Stock.partition hstock { stock with batches := rest } rfl]
    exact h.distinct
  known := by
    rw [map_set_same Stock.partition hstock { stock with batches := rest } rfl]
    intro other hother
    rcases List.mem_append.mp hother with hother | hother
    · exact h.known other hother
    · obtain rfl := List.mem_singleton.mp hother
      rw [h.partition_of_mem hlabelled hstock (hbatches ▸ List.mem_cons_self)]
      exact List.mem_map_of_mem (List.mem_of_getElem? hstock)

/-- The merge goes, and everything in stock with it. -/
theorem drop (h : Lanes stream startOf transport popped receivers stocks) :
    Lanes stream startOf transport popped receivers
      (stocks.map fun stock => ⟨stock.partition, [], false⟩) where
  lane {index reader found} hreceiver hfound := by
    rw [List.getElem?_map, Option.map_eq_some_iff] at hfound
    obtain ⟨stock, hstock, rfl⟩ := hfound
    exact (h.lane hreceiver hstock).drop
  complete := by rw [List.length_map, h.complete]
  distinct := by
    rw [List.map_map]
    exact h.distinct
  known := by
    rw [List.map_map]
    exact h.known

end Lanes

namespace Merge

variable {stream : String} {startOf : String → StartPosition} {transport : Transport}
  {popped sent taken : List MessageBatch} {receivers : List Receiver} {control : Control}
  {view : View} {next : Control × View}

/-- What a merge has popped has been sent or is held, and what it has sent is passed on. -/
structure Sends (control : Option Control) (output : Channel MessageBatch)
    (popped sent taken : List MessageBatch) : Prop where
  conserved : Conserved popped (held control) sent (control ≠ some .finished)
  passes : output.Passes sent taken

theorem stocks_of_finish (view : View) :
    stocksOf (finish view).2.slots =
      (stocksOf view.slots).map fun stock => ⟨stock.partition, [], false⟩ := by
  show stocksOf (view.slots.map _) = _
  rw [stocksOf, stocksOf, List.map_map, List.map_map]
  rfl

theorem Sends.finish {control : Option Control} (h : Sends control view.output popped sent taken) :
    Sends (some (finish view).1) (finish view).2.output popped sent taken where
  conserved := .stopped h.conserved.begins fun hworking => hworking rfl
  passes := h.passes.drop_sender

/-- A move of the merge keeps the lanes and loses nothing that has been popped. -/
theorem Move.keeps (h : Move control view next) (hlabelled : transport.Labelled)
    (hlanes : Lanes stream startOf transport popped receivers (stocksOf view.slots))
    (hsends : Sends (some control) view.output popped sent taken) :
    ∃ popped sent, Lanes stream startOf transport popped receivers (stocksOf next.2.slots) ∧
      Sends (some next.1) next.2.output popped sent taken := by
  cases h with
  | wait hworking hcontrol hnext hslots =>
      refine ⟨popped, sent, hslots ▸ hlanes, ?_, hsends.passes⟩
      have hconserved := hsends.conserved
      rw [hcontrol] at hconserved
      rw [hnext]
      exact hconserved.mono fun _ hfinished => hworking (Option.some.inj hfinished)
  | @pop count index stock batch rest slots hcontrol hstock hbatches hslots =>
      subst hcontrol
      refine ⟨popped ++ [batch], sent, ?_, ?_, hsends.passes⟩
      · show Lanes stream startOf transport _ receivers (stocksOf slots)
        rw [hslots]
        exact hlanes.pop hlabelled hstock hbatches
      · exact hsends.conserved.accept nofun [batch] _
  | @send batch output hcontrol hsend =>
      subst hcontrol
      refine ⟨popped, sent ++ [batch], hlanes, ?_, hsends.passes.send hsend⟩
      exact (hsends.conserved.give [batch]).mono fun _ => nofun
  | finish =>
      refine ⟨popped, sent, ?_, Sends.finish hsends⟩
      rw [stocks_of_finish]
      exact hlanes.drop

end Merge

end WindowJoin
