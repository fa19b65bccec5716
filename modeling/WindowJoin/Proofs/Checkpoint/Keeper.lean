import WindowJoin.Proofs.Checkpoint.Commits
import WindowJoin.Proofs.Checkpoint.RoundTrip
import WindowJoin.Proofs.Checkpoint.Turn
import WindowJoin.Proofs.Conservation
import WindowJoin.Proofs.Pipeline.Opened

/-!
# The keeper of the checkpoint and the world around it

A `Checkpointer.History` is a keeper under way, in the last of any number of runs over one store, each
of which has gone on from the checkpoint that was stored. `Checkpointer.History.Step` lets everything
happen that may happen: a turn of the keeper, whichever is taken; a command that is sent; the last
sender that goes; a cancellation; time that passes; writes that are made to fail, and other documents
that are written; and a restart, wherever the run before it has got to. `Checkpointer.History.Kept` is
what every step keeps: the checkpoint is that of the commands taken so far, and what has been stored
never goes back and is at or behind it. `Checkpointer.History.commits_kept` draws from it what the
senders of commands can rely on.
-/

namespace WindowJoin

/-- The checkpoint after a command. A commit that would move it back is passed over. -/
def JoinCheckpoint.take (checkpoint : JoinCheckpoint) : Checkpointer.Command → JoinCheckpoint
  | .commit partition offset enqueuedTime =>
    match checkpoint.advance partition offset enqueuedTime with
    | .ok advanced => advanced
    | .error _ => checkpoint
  | .flush _ | .shutdown _ => checkpoint

namespace Checkpointer

/-- A request leaves the checkpoint as it is. -/
theorem take_request {command : Command} {request : Nat} (h : command.request? = some request)
    (checkpoint : JoinCheckpoint) : checkpoint.take command = checkpoint := by
  cases command with
  | commit => cases h
  | flush | shutdown => rfl

/-- Some commit among the commands moves the checkpoint forward. -/
def Accepts (checkpoint : JoinCheckpoint) (commands : List Command) : Prop :=
  ∃ before partition offset enqueuedTime rest advanced,
    commands = before ++ .commit partition offset enqueuedTime :: rest ∧
      (before.foldl JoinCheckpoint.take checkpoint).advance partition offset enqueuedTime =
        .ok advanced

theorem Accepts.append {checkpoint : JoinCheckpoint} {commands : List Command}
    (h : Accepts checkpoint commands) (later : List Command) :
    Accepts checkpoint (commands ++ later) := by
  obtain ⟨before, partition, offset, enqueuedTime, rest, advanced, rfl, hadvanced⟩ := h
  exact ⟨before, partition, offset, enqueuedTime, rest ++ later, advanced, by simp, hadvanced⟩

/-- What the last command does not accept has been accepted before. -/
theorem accepts_concat {checkpoint : JoinCheckpoint} {commands : List Command} {command : Command}
    (h : Accepts checkpoint (commands ++ [command])) :
    Accepts checkpoint commands ∨ ∃ partition offset enqueuedTime advanced,
      command = .commit partition offset enqueuedTime ∧
        (commands.foldl JoinCheckpoint.take checkpoint).advance partition offset enqueuedTime =
          .ok advanced := by
  obtain ⟨before, partition, offset, enqueuedTime, rest, advanced, hsplit, hadvanced⟩ := h
  rcases List.eq_nil_or_concat rest with rfl | ⟨later, last, rfl⟩
  · obtain ⟨rfl, hlast⟩ := List.append_inj' hsplit rfl
    exact .inr ⟨partition, offset, enqueuedTime, advanced, (List.cons.inj hlast).1, hadvanced⟩
  · rw [List.concat_eq_append, ← List.cons_append, ← List.append_assoc] at hsplit
    obtain ⟨rfl, -⟩ := List.append_inj' hsplit rfl
    exact .inl ⟨before, partition, offset, enqueuedTime, later, advanced, rfl, hadvanced⟩

/-- A commit moves the checkpoint forward, which is then published and to be stored, or it changes
nothing. -/
theorem commit_cases (actor : Checkpointer) (partition : String) (offset : Int64)
    (enqueuedTime : Instant) :
    (∃ advanced, actor.checkpoint.advance partition offset enqueuedTime = .ok advanced ∧
        actor.commit partition offset enqueuedTime =
          { actor with checkpoint := advanced, published := advanced, dirty := true }) ∨
      (∃ regression, actor.checkpoint.advance partition offset enqueuedTime = .error regression) ∧
        actor.commit partition offset enqueuedTime = actor := by
  simp only [commit, JoinCheckpoint.move_eq, JoinCheckpoint.advance_eq]
  split
  · exact .inr ⟨⟨_, rfl⟩, rfl⟩
  · exact .inl ⟨_, rfl, rfl⟩

theorem commit_control (actor : Checkpointer) (partition : String) (offset : Int64)
    (enqueuedTime : Instant) :
    (actor.commit partition offset enqueuedTime).control = actor.control := by
  rcases actor.commit_cases partition offset enqueuedTime with ⟨_, -, hcommit⟩ | ⟨-, hcommit⟩ <;>
    rw [hcommit]

/-- A keeper under way. -/
structure History where
  actor : Checkpointer
  view : View
  /-- The checkpoint that the present run has gone on from. -/
  initial : JoinCheckpoint
  /-- The commands that have been sent in the present run. -/
  sent : List Command
  /-- The commands that have been taken in the present run. -/
  taken : List Command
  /-- The checkpoints that have been stored in all runs. -/
  stored : List JoinCheckpoint

namespace History

/-- A run before its first turn. -/
def begin (settings : Pipeline.Settings) (initial : JoinCheckpoint) (blobs : Guarded MemoryBlobs)
    (now : Nat) (stored : List JoinCheckpoint) : History where
  actor := .start settings.checkpointer initial now
  view := ⟨.new commandCapacity, [], blobs, false, now⟩
  initial
  sent := []
  taken := []
  stored

/-- The history in which the keeper sees something else. -/
def see (history : History) (view : View) : History :=
  { history with view }

/-- The history after a turn. -/
def after (history : History) (taken : List Command) (stored : List JoinCheckpoint)
    (next : Checkpointer × View) : History :=
  { history with
    actor := next.1, view := next.2, taken := history.taken ++ taken
    stored := history.stored ++ stored }

/-- What may happen next. -/
inductive Step (settings : Pipeline.Settings) (history : History) : History → Prop where
  | turn {taken : List Command} {stored : List JoinCheckpoint} {next : Checkpointer × View} :
      Turn settings.checkpointer history.actor history.view taken stored next →
      Step settings history (history.after taken stored next)
  | send {command : Command} {commands : Channel Command} :
      history.view.commands.send command = .sent commands →
      Step settings history { history.see { history.view with commands } with
        sent := history.sent ++ [command] }
  /-- The last sender goes. -/
  | leave : Step settings history
      (history.see { history.view with commands := history.view.commands.dropSender })
  | cancel : Step settings history (history.see { history.view with cancelled := true })
  | elapse {now : Nat} : history.view.now ≤ now →
      Step settings history (history.see { history.view with now })
  /-- Writes and reads are made to fail or to succeed, and other documents change. -/
  | outside {blobs : Guarded MemoryBlobs} :
      ({ history.view with blobs } : View).document settings.checkpointer =
        history.view.document settings.checkpointer →
      Step settings history (history.see { history.view with blobs })
  /-- The run is over, or breaks off, and another one goes on from the stored checkpoint. -/
  | restart {checkpoint : Option JoinCheckpoint} (now : Nat) :
      (settings.loadCheckpoint (Guarded.access MemoryBlobs.access) history.view.blobs).result =
        .ok checkpoint →
      Step settings history (begin settings (checkpoint.getD .empty)
        (settings.loadCheckpoint (Guarded.access MemoryBlobs.access) history.view.blobs).store now
        history.stored)

/-- The histories of a keeper whose first run goes on from any checkpoint. -/
inductive Reachable (settings : Pipeline.Settings) : History → Prop where
  | start (initial : JoinCheckpoint) (blobs : Guarded MemoryBlobs) (now : Nat) :
      Reachable settings (begin settings initial blobs now [])
  | step {history next : History} : Reachable settings history → history.Step settings next →
      Reachable settings next

/-! ## What every step keeps -/

/-- The checkpoint, what is seen of it, and what is stored fit together. -/
structure Kept (settings : Pipeline.Settings) (history : History) : Prop where
  published : history.actor.published = history.actor.checkpoint
  folded : history.actor.checkpoint = history.taken.foldl JoinCheckpoint.take history.initial
  passed : history.view.commands.Passes history.sent history.taken
  ordered : history.stored.Pairwise JoinCheckpoint.AtOrBehind
  /-- The last checkpoint that was stored is in the document. -/
  last : ∀ before last, history.stored = before ++ [last] →
    history.view.document settings.checkpointer = some last.toJson ∧
      last.AtOrBehind history.actor.checkpoint ∧
      (history.actor.dirty = false → last = history.actor.checkpoint)
  /-- A commit that was accepted and is not to be stored has been stored. -/
  changed : history.actor.dirty = false → Accepts history.initial history.taken →
    history.stored ≠ []

/-- A keeper that stores its checkpoint has something to store, and if it was asked to, the request is
the last command that it has taken. -/
def Attends (history : History) : Prop :=
  ∀ attempts time purpose, history.actor.control = .storing attempts time purpose →
    history.actor.dirty = true ∧ ∀ request, purpose.request? = some request →
      ∃ before command, history.taken = before ++ [command] ∧ command.request? = some request

variable {settings : Pipeline.Settings} {history next : History}

theorem begin_kept {initial : JoinCheckpoint} {blobs : Guarded MemoryBlobs} {now : Nat}
    {stored : List JoinCheckpoint} (hordered : stored.Pairwise JoinCheckpoint.AtOrBehind)
    (hlast : ∀ before last, stored = before ++ [last] →
      blobs.store.get? settings.config.checkpointBlobName = some last.toJson ∧ last = initial) :
    (begin settings initial blobs now stored).Kept settings where
  published := rfl
  folded := rfl
  passed := Channel.passes_new _
  ordered := hordered
  last before last hstored := by
    obtain ⟨hdocument, rfl⟩ := hlast before last hstored
    exact ⟨hdocument, .refl _, fun _ => rfl⟩
  changed _ haccepts := by
    obtain ⟨before, _, _, _, rest, _, hsplit, -⟩ := haccepts
    cases before <;> cases hsplit

/-- The first run of a keeper has stored nothing. -/
theorem start_kept (initial : JoinCheckpoint) (blobs : Guarded MemoryBlobs) (now : Nat) :
    (begin settings initial blobs now []).Kept settings :=
  begin_kept .nil fun before last h => by cases before <;> cases h

namespace Kept

/-- The keeper is back to what it was listening for, or at its end. -/
theorem conclude (h : history.Kept settings) (purpose : Purpose) (result : Except Failure Unit) :
    let concluded := history.actor.conclude history.view purpose result
    ({ history with actor := concluded.1, view := concluded.2 } : History).Kept settings ∧
      ({ history with actor := concluded.1, view := concluded.2 } : History).Attends := by
  obtain ⟨control, commands, answers, hconclude, hcontrol, hcommands, -⟩ :=
    conclude_spec history.actor history.view purpose result
  rw [hconclude]
  have hpassed : commands.Passes history.sent history.taken := by
    rcases hcommands with rfl | rfl
    · exact h.passed
    · exact h.passed.drop_receiver
  refine ⟨{ h with passed := hpassed }, ?_⟩
  intro attempts time purpose hstoring
  rcases hcontrol with rfl | rfl <;> cases hstoring

/-- What is taken with a prompt leaves the checkpoint, and a request that the prompt is for is taken
last. -/
theorem prompt (h : history.Kept settings) {taken : List Command} {purpose : Purpose}
    {ticker : Ticker} {seen : View}
    (hprompt : Prompt history.actor history.view taken purpose ticker seen) :
    (history.after taken [] ({ history.actor with ticker }, seen)).Kept settings ∧
      ∀ request, purpose.request? = some request → ∃ before command,
        history.taken ++ taken = before ++ [command] ∧ command.request? = some request := by
  have hnothing (ticker : Ticker) :
      (history.after [] [] ({ history.actor with ticker }, history.view)).Kept settings := by
    simp only [after, List.append_nil]
    exact { h with }
  -- A request changes no checkpoint, and it is not a commit that could be accepted.
  have hrequest {command : Command} {commands : Channel Command} {request : Nat}
      (hreceive : history.view.commands.receive = .item command commands)
      (hcommand : command.request? = some request) :
      (history.after [command] [] (history.actor, { history.view with commands })).Kept
        settings := by
    simp only [after, List.append_nil]
    refine ⟨h.published, ?_, h.passed.receive hreceive, h.ordered, h.last, ?_⟩
    · show history.actor.checkpoint =
        (history.taken ++ [command]).foldl JoinCheckpoint.take history.initial
      rw [List.foldl_concat, take_request hcommand]
      exact h.folded
    · intro hclean haccepts
      rcases accepts_concat haccepts with hbefore | ⟨_, _, _, _, rfl, -⟩
      · exact h.changed hclean hbefore
      · cases hcommand
  cases hprompt with
  | cancel hcancelled => exact ⟨hnothing _, nofun⟩
  | tick hdue => exact ⟨hnothing _, nofun⟩
  | flush hreceive => exact ⟨hrequest hreceive rfl, fun request h => ⟨_, _, rfl, h⟩⟩
  | shutdown hreceive => exact ⟨hrequest hreceive rfl, fun request h => ⟨_, _, rfl, h⟩⟩
  | ended hreceive => exact ⟨hnothing _, nofun⟩

/-- A commit is accepted or passed over. -/
theorem commit (h : history.Kept settings) {partition : String} {offset : Int64}
    {enqueuedTime : Instant} {commands : Channel Command}
    (hreceive : history.view.commands.receive =
      .item (.commit partition offset enqueuedTime) commands) :
    (history.after [.commit partition offset enqueuedTime] []
      (history.actor.commit partition offset enqueuedTime,
        { history.view with commands })).Kept settings := by
  have hpassed := h.passed.receive hreceive
  simp only [after, List.append_nil]
  rcases history.actor.commit_cases partition offset enqueuedTime with
    ⟨advanced, hadvanced, hcommit⟩ | ⟨⟨regression, hrefused⟩, hcommit⟩
  · rw [hcommit]
    refine ⟨rfl, ?_, hpassed, h.ordered, fun before last hstored => ?_, nofun⟩
    · show advanced = (history.taken ++ [_]).foldl JoinCheckpoint.take history.initial
      rw [List.foldl_concat, ← h.folded, JoinCheckpoint.take, hadvanced]
    · obtain ⟨hdocument, hbehind, -⟩ := h.last before last hstored
      exact ⟨hdocument, hbehind.trans (JoinCheckpoint.advance_ahead hadvanced), nofun⟩
  · rw [hcommit]
    refine ⟨h.published, ?_, hpassed, h.ordered, h.last, fun hclean haccepts => ?_⟩
    · show history.actor.checkpoint =
        (history.taken ++ [_]).foldl JoinCheckpoint.take history.initial
      rw [List.foldl_concat, ← h.folded, JoinCheckpoint.take, hrefused]
    · rcases accepts_concat haccepts with hbefore | ⟨_, _, _, advanced, hsame, hadvanced⟩
      · exact h.changed hclean hbefore
      · cases hsame
        rw [← h.folded, hrefused] at hadvanced
        cases hadvanced

/-- Everything stored so far is at or behind the checkpoint. -/
theorem stored_behind (h : history.Kept settings) {earlier : JoinCheckpoint}
    (hearlier : earlier ∈ history.stored) : earlier.AtOrBehind history.actor.checkpoint := by
  rcases List.eq_nil_or_concat history.stored with hnone | ⟨before, last, hstored⟩
  · rw [hnone] at hearlier
    cases hearlier
  · rw [List.concat_eq_append] at hstored
    obtain ⟨-, hbehind, -⟩ := h.last before last hstored
    have hordered := h.ordered
    rw [hstored] at hearlier hordered
    rcases List.mem_append.mp hearlier with hbefore | hlast
    · exact ((List.pairwise_append.mp hordered).2.2 earlier hbefore last
        List.mem_cons_self).trans hbehind
    · rwa [List.mem_singleton.mp hlast]

/-- The checkpoint is stored. -/
theorem store (h : history.Kept settings)
    (hwritten : (write settings.checkpointer history.actor history.view).1 = .ok ()) :
    (history.after [] [history.actor.checkpoint] ({ history.actor with dirty := false },
      { history.view with
        blobs := (write settings.checkpointer history.actor history.view).2 })).Kept settings where
  published := h.published
  folded := by
    simp only [after, List.append_nil]
    exact h.folded
  passed := by
    simp only [after, List.append_nil]
    exact h.passed
  ordered := by
    refine List.pairwise_append.mpr ⟨h.ordered, List.pairwise_singleton _ _, ?_⟩
    intro earlier hearlier checkpoint hcheckpoint
    rw [List.mem_singleton.mp hcheckpoint]
    exact h.stored_behind hearlier
  last before last hstored := by
    obtain ⟨-, hlast⟩ := List.append_inj' hstored rfl
    obtain rfl := (List.cons.inj hlast).1
    exact ⟨write_ok hwritten, .refl _, fun _ => rfl⟩
  changed _ _ := by simp [after]

/-- A failure to store leaves everything as it is. -/
theorem fail (h : history.Kept settings) {error : StorageError}
    (herror : (write settings.checkpointer history.actor history.view).1 = .error error) :
    (history.after [] [] (history.actor, { history.view with
      blobs := (write settings.checkpointer history.actor history.view).2 })).Kept settings := by
  simp only [after, List.append_nil]
  refine { h with last := fun before last hstored => ?_ }
  obtain ⟨hdocument, hlast⟩ := h.last before last hstored
  exact ⟨(write_error herror).trans hdocument, hlast⟩

/-- A turn keeps everything together. -/
theorem turn (h : history.Kept settings) (hattends : history.Attends) {taken : List Command}
    {stored : List JoinCheckpoint} {next : Checkpointer × View}
    (hturn : Turn settings.checkpointer history.actor history.view taken stored next) :
    (history.after taken stored next).Kept settings ∧
      (history.after taken stored next).Attends := by
  cases hturn with
  | @commit partition offset enqueuedTime _ hcontrol hreceive =>
      refine ⟨h.commit hreceive, fun attempts time purpose hstoring => ?_⟩
      have hlistening :
          (history.actor.commit partition offset enqueuedTime).control = .listening :=
        (commit_control ..).trans hcontrol
      cases hlistening.symm.trans hstoring
  | begin hcontrol hprompt hdirty =>
      obtain ⟨hkept, hrequest⟩ := h.prompt hprompt
      refine ⟨{ hkept with }, ?_⟩
      intro attempts time purpose hstoring
      cases hstoring
      exact ⟨hdirty, hrequest⟩
  | spare hcontrol hprompt hclean => exact (h.prompt hprompt).1.conclude _ _
  | store hcontrol hdue hwritten => exact (h.store hwritten).conclude _ _
  | retry hcontrol hdue herror hagain =>
      have hkept := h.fail herror
      refine ⟨{ hkept with }, ?_⟩
      intro attempts time purpose hstoring
      cases hstoring
      simpa [after] using hattends _ _ _ hcontrol
  | fail hcontrol hdue herror hdone => exact (h.fail herror).conclude _ _

end Kept

theorem step_kept (h : history.Kept settings) (hattends : history.Attends)
    (hstep : history.Step settings next) : next.Kept settings ∧ next.Attends := by
  cases hstep with
  | turn hturn => exact h.turn hattends hturn
  | send hsend => exact ⟨{ h with passed := h.passed.send hsend }, hattends⟩
  | leave => exact ⟨{ h with passed := h.passed.drop_sender }, hattends⟩
  | cancel => exact ⟨{ h with }, hattends⟩
  | elapse hnow => exact ⟨{ h with }, hattends⟩
  | outside hdocument =>
      refine ⟨{ h with last := fun before last hstored => ?_ }, hattends⟩
      obtain ⟨hlast, hbehind⟩ := h.last before last hstored
      exact ⟨hdocument.trans hlast, hbehind⟩
  | restart now hload =>
      refine ⟨begin_kept h.ordered fun before last hstored => ?_, nofun⟩
      obtain ⟨hinitial, hkept⟩ := Pipeline.load_checkpoint_gives hload
      obtain ⟨hdocument, -⟩ := h.last before last hstored
      have hdocument : history.view.blobs.store.get? settings.config.checkpointBlobName =
          some last.toJson := hdocument
      rw [hinitial, hkept, hdocument, CheckpointStore.checkpointIn, join_of_json_to_json]
      exact ⟨rfl, rfl⟩

theorem Reachable.kept (h : Reachable settings history) :
    history.Kept settings ∧ history.Attends := by
  induction h with
  | start initial blobs now => exact ⟨start_kept initial blobs now, nofun⟩
  | step _ hstep ih => exact step_kept ih.1 ih.2 hstep

/-! ## What the senders of commands can rely on -/

/-- What a turn does to the document and what it answers. -/
structure Truthful (settings : Pipeline.Settings) (history : History) (taken : List Command)
    (stored : List JoinCheckpoint) (next : Checkpointer × View) : Prop where
  /-- Either the document stays as it is, or the checkpoint of that moment is stored in it. -/
  stores : stored = [] ∧ next.2.document settings.checkpointer =
        history.view.document settings.checkpointer ∨
      stored = [history.actor.checkpoint] ∧
        next.2.document settings.checkpointer = some history.actor.checkpoint.toJson
  /-- A change that has not been stored remains to be stored, also after a failure, and a listening
  keeper sets about it unless it takes another commit first. -/
  remembers : history.actor.dirty = true → stored = [] → next.1.dirty = true ∧
    (history.actor.control = .listening →
      (∃ partition offset enqueuedTime, taken = [.commit partition offset enqueuedTime]) ∨
        ∃ attempts time purpose, next.1.control = .storing attempts time purpose)
  /-- When a request is answered with success, the keeper has the checkpoint of the commands that were
  sent before the request, and if one of them was accepted, or anything was stored before, then this is
  stored. -/
  answers : ∀ answers request, next.2.replies = history.view.replies ++ answers →
    (request, .ok ()) ∈ answers → ∃ before command later,
      history.sent = before ++ command :: later ∧ command.request? = some request ∧
        next.1.checkpoint = before.foldl JoinCheckpoint.take history.initial ∧
        (Accepts history.initial before ∨ history.stored ≠ [] →
          next.2.document settings.checkpointer = some next.1.checkpoint.toJson)

/-- When nothing is to be stored, every commit that was accepted has been. -/
theorem Kept.saved (h : history.Kept settings) (hclean : history.actor.dirty = false)
    (haccepts : Accepts history.initial history.taken ∨ history.stored ≠ []) :
    history.view.document settings.checkpointer = some history.actor.checkpoint.toJson := by
  have hsome : history.stored ≠ [] := haccepts.elim (h.changed hclean) id
  rcases List.eq_nil_or_concat history.stored with hnone | ⟨before, last, hstored⟩
  · exact absurd hnone hsome
  · rw [List.concat_eq_append] at hstored
    obtain ⟨hdocument, -, hlast⟩ := h.last before last hstored
    rw [hdocument, hlast hclean]

/-- Behind a request that was taken last, the checkpoint is that of the commands before it, and what
holds once something has been stored holds if one of those was accepted. -/
theorem Kept.answer (h : history.Kept settings) {request : Nat}
    (hlast : ∃ before command, history.taken = before ++ [command] ∧
      command.request? = some request) {saved : Prop}
    (hsaved : Accepts history.initial history.taken ∨ history.stored ≠ [] → saved) :
    ∃ before command later, history.sent = before ++ command :: later ∧
      command.request? = some request ∧
      history.actor.checkpoint = before.foldl JoinCheckpoint.take history.initial ∧
      (Accepts history.initial before ∨ history.stored ≠ [] → saved) := by
  obtain ⟨before, command, htaken, hrequest⟩ := hlast
  obtain ⟨later, hsent⟩ := h.passed.begins
  refine ⟨before, command, later, ?_, hrequest, ?_, fun haccepts => hsaved (haccepts.imp_left ?_)⟩
  · rw [← hsent, htaken, List.append_assoc]
    rfl
  · rw [h.folded, htaken, List.foldl_concat, take_request hrequest]
  · rw [htaken]
    exact fun hbefore => hbefore.append [command]

/-- A turn that gives no answers answers nothing with success. -/
theorem no_answer {replies answers : Replies} (h : replies = replies ++ answers) {request : Nat} :
    (request, .ok ()) ∉ answers := by
  rw [List.self_eq_append_right.mp h]
  exact List.not_mem_nil

theorem turn_truthful (h : history.Kept settings) (hattends : history.Attends)
    {taken : List Command} {stored : List JoinCheckpoint} {next : Checkpointer × View}
    (hturn : Turn settings.checkpointer history.actor history.view taken stored next) :
    history.Truthful settings taken stored next := by
  cases hturn with
  | @commit partition offset enqueuedTime _ hcontrol hreceive =>
      refine ⟨.inl ⟨rfl, rfl⟩, fun hdirty _ => ⟨?_, fun _ => .inl ⟨_, _, _, rfl⟩⟩, ?_⟩
      · rcases history.actor.commit_cases partition offset enqueuedTime with
          ⟨_, -, hcommit⟩ | ⟨-, hcommit⟩
        · rw [hcommit]
        · rw [hcommit]
          exact hdirty
      · exact fun answers request hreplies hmem => absurd hmem (no_answer hreplies)
  | begin hcontrol hprompt hdirty =>
      obtain ⟨hblobs, hreplies⟩ := hprompt.seen_eq
      refine ⟨.inl ⟨rfl, by rw [View.document, hblobs]; rfl⟩,
        fun _ _ => ⟨hdirty, fun _ => .inr ⟨_, _, _, rfl⟩⟩, ?_⟩
      intro answers request hanswers hmem
      exact absurd hmem (no_answer (hreplies.symm.trans hanswers))
  | spare hcontrol hprompt hclean =>
      obtain ⟨hblobs, hreplies⟩ := hprompt.seen_eq
      obtain ⟨hkept, hrequest⟩ := h.prompt hprompt
      refine ⟨.inl ⟨rfl, ?_⟩, fun hdirty => absurd (hdirty.symm.trans hclean) (by decide), ?_⟩
      · rw [conclude_document, View.document, hblobs]
        rfl
      · intro answers request hanswers hmem
        rw [← hreplies] at hanswers
        obtain ⟨hpurpose, -⟩ := conclude_answers hanswers hmem
        have hanswer := hkept.answer (hrequest request hpurpose) (hkept.saved hclean)
        simp only [after, List.append_nil] at hanswer
        rwa [conclude_checkpoint, conclude_document]
  | store hcontrol hdue hwritten =>
      refine ⟨.inr ⟨rfl, ?_⟩, fun _ hnone => absurd hnone (List.cons_ne_nil _ _), ?_⟩
      · rw [conclude_document]
        exact write_ok hwritten
      · intro answers request hanswers hmem
        obtain ⟨hpurpose, -⟩ := conclude_answers hanswers hmem
        rw [conclude_checkpoint, conclude_document]
        exact h.answer ((hattends _ _ _ hcontrol).2 request hpurpose) fun _ => write_ok hwritten
  | retry hcontrol hdue herror hagain =>
      refine ⟨.inl ⟨rfl, write_error herror⟩, fun hdirty _ => ⟨hdirty, fun hlistening => ?_⟩, ?_⟩
      · cases hlistening.symm.trans hcontrol
      · exact fun answers request hreplies hmem => absurd hmem (no_answer hreplies)
  | fail hcontrol hdue herror hdone =>
      refine ⟨.inl ⟨rfl, ?_⟩, fun hdirty _ => ⟨?_, fun hlistening => ?_⟩, ?_⟩
      · rw [conclude_document]
        exact write_error herror
      · rwa [conclude_dirty]
      · cases hlistening.symm.trans hcontrol
      · intro answers request hanswers hmem
        cases (conclude_answers hanswers hmem).2

/-- Of a keeper in any history: what everyone sees is its checkpoint, which is that of the commands it
has taken, in the order in which they were sent; of all checkpoints that have been stored, in this run
and those before it, none is ahead of a later one or of the present one; and when no change is to be
stored, every commit that was accepted has been. Whatever the keeper does next, it stores the
checkpoint of that moment if anything, it does not forget a change that it could not store, and it
answers a request with success only if the commands before the request are in the checkpoint and in
the document. -/
theorem commits_kept (h : Reachable settings history) :
    history.actor.published = history.actor.checkpoint ∧
      history.actor.checkpoint = history.taken.foldl JoinCheckpoint.take history.initial ∧
      history.taken <+: history.sent ∧
      history.stored.Pairwise JoinCheckpoint.AtOrBehind ∧
      (∀ earlier ∈ history.stored, earlier.AtOrBehind history.actor.checkpoint) ∧
      (history.actor.dirty = false →
        Accepts history.initial history.taken ∨ history.stored ≠ [] →
        history.view.document settings.checkpointer = some history.actor.checkpoint.toJson) ∧
      (∀ next ∈ transitions settings.checkpointer history.actor history.view, ∃ taken stored,
        Turn settings.checkpointer history.actor history.view taken stored next ∧
          history.Truthful settings taken stored next) ∧
      ∀ taken stored next,
        Turn settings.checkpointer history.actor history.view taken stored next →
        history.Truthful settings taken stored next := by
  obtain ⟨hkept, hattends⟩ := h.kept
  refine ⟨hkept.published, hkept.folded, hkept.passed.begins, hkept.ordered,
    fun earlier hearlier => hkept.stored_behind hearlier, hkept.saved, fun next hnext => ?_,
    fun taken stored next hturn => turn_truthful hkept hattends hturn⟩
  obtain ⟨taken, stored, hturn⟩ := mem_transitions.mp hnext
  exact ⟨taken, stored, hturn, turn_truthful hkept hattends hturn⟩

/-! ## A failure -/

def sampleSettings : Pipeline.Settings :=
  ⟨{}, .standard, .standard, false⟩

/-- One partition is committed. -/
def sampleCheckpoint : JoinCheckpoint :=
  OrderedMap.insert .empty "0" ⟨some 8, some .epoch⟩

/-- A keeper that has taken the commit in. -/
def sampleHistory (control : Control) (queue sent taken : List Command) (replies : Replies)
    (failures : List StorageError) : History where
  actor := { Checkpointer.start sampleSettings.checkpointer sampleCheckpoint 0 with
    dirty := true, control }
  view := ⟨⟨commandCapacity, queue, true, true⟩, replies, ⟨⟨.empty, failures, 0⟩, []⟩, false, 0⟩
  initial := .empty
  sent
  taken
  stored := []

/-- What is sent: a commit and two requests to store. -/
def sampleCommands : List Command :=
  [.commit "0" 8 .epoch, .flush 0, .flush 1]

/-- The answer to the first request. -/
def sampleRefusal : Nat × Except Failure Unit :=
  (0, .error (Activity.writingJoinCheckpoint.storageFailure (.task "stopped")))

/-- The first request has met a failure, and the second is at work. -/
def sampleAsked : History :=
  sampleHistory (.storing (.start 5 .standard) 0 (.flush 1)) [] sampleCommands sampleCommands
    [sampleRefusal] []

theorem sample_asked_reachable : Reachable sampleSettings sampleAsked := by
  have hstart : Reachable sampleSettings (begin sampleSettings .empty
      ⟨⟨.empty, [.task "stopped"], 0⟩, []⟩ 0 []) := .start ..
  have hcommit := hstart.step (@Step.send _ _ (.commit "0" 8 .epoch) _ rfl)
  have hflush := hcommit.step (@Step.send _ _ (.flush 0) _ rfl)
  have hsent := hflush.step (@Step.send _ _ (.flush 1) _ rfl)
  have htaken := hsent.step (.turn (.commit rfl rfl))
  have hlistens : Reachable sampleSettings (sampleHistory .listening [.flush 0, .flush 1]
      sampleCommands (sampleCommands.take 1) [] [.task "stopped"]) := htaken
  have hbegun := hlistens.step (.turn (.begin rfl (.flush rfl) rfl))
  have hfailed := hbegun.step (.turn (.fail rfl (Nat.le_refl 0) rfl rfl))
  have hagain : Reachable sampleSettings (sampleHistory .listening [.flush 1] sampleCommands
      (sampleCommands.take 2) [sampleRefusal] []) := hfailed
  exact hagain.step (.turn (.begin rfl (.flush rfl) rfl))

/-- The second request is answered with success, and the commit is in the document. -/
theorem commits_kept_sample :
    ∃ next, Reachable sampleSettings sampleAsked ∧
      Turn sampleSettings.checkpointer sampleAsked.actor sampleAsked.view [] [sampleCheckpoint]
        next ∧
      next.2.replies = [sampleRefusal, (1, .ok ())] ∧
      next.2.document sampleSettings.checkpointer = some sampleCheckpoint.toJson := by
  have hturn : Turn sampleSettings.checkpointer sampleAsked.actor sampleAsked.view []
      [sampleCheckpoint] _ := .store rfl (Nat.le_refl 0) rfl
  obtain ⟨-, -, -, -, -, -, -, htruthful⟩ := commits_kept sample_asked_reachable
  rcases (htruthful _ _ _ hturn).stores with ⟨hnone, -⟩ | ⟨-, hdocument⟩
  · cases hnone
  · exact ⟨_, sample_asked_reachable, hturn, rfl, hdocument⟩

end History

end Checkpointer

end WindowJoin
