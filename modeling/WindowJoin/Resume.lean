import WindowJoin.Checkpoint
import WindowJoin.Transport.Start

/-!
# Resume positions

Where a run starts to read. A partition of interactions goes on after the offset of its checkpoint,
or from its time; one without a checkpoint starts at a given time. The observations start one window
before the earliest time at which interactions are read again.
-/

namespace WindowJoin

/-- Where the reading of a partition of interactions begins. -/
def interactionStart (checkpoint : Option JoinCheckpoint) (fallback : Instant)
    (partition : String) : StartPosition :=
  match checkpoint.bind (·.get? partition) with
  | some ⟨some offset, _⟩ => .afterOffset offset
  | some ⟨none, some time⟩ => .atTime time
  | _ => .atTime fallback

/-- The time from which the interactions of a partition are read again. -/
def resumeTime (checkpoint : JoinCheckpoint) (fallback : Instant) (partition : String) : Instant :=
  (checkpoint.progress partition).enqueuedTime.getD fallback

/-- The earlier of two instants. -/
def Instant.min (first second : Instant) : Instant :=
  if second < first then second else first

/-- Where the reading of every partition of observations begins. Without a checkpoint no interaction
is read again, and they begin with the interactions. -/
def observationStart (interactionPartitions : List String) (checkpoint : Option JoinCheckpoint)
    (window : Int) (fallback : Instant) : Instant :=
  match checkpoint with
  | none => fallback
  | some checkpoint =>
    let first :=
      match interactionPartitions.map (resumeTime checkpoint fallback) with
      | [] => fallback
      | time :: rest => rest.foldl Instant.min time
    first.subSaturating window

end WindowJoin
