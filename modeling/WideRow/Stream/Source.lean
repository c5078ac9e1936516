import WideRow.Fault.Query

/-!
# Sources

Where a scan gets its records from: a named series of replies, each a batch of records or a failure,
after which every reply is an empty batch.  An empty batch says that there is no more.

What sources and stores are asked for is written down as events.
-/

namespace WideRow

/-- Why a source fails: what went wrong, from the outermost cause to the innermost. -/
structure SourceFailure where
  causes : List String
  deriving DecidableEq

/-- The description of a failure. -/
def SourceFailure.text (failure : SourceFailure) : String :=
  if failure.causes.isEmpty then "source failed" else ": ".intercalate failure.causes

/-- Something that a store or a source was asked for. -/
inductive Event where
  /-- A scan of some ranges of a table was opened with a number of filters. -/
  | opened (table : String) (ranges : List String) (filters : Nat)
  /-- At most `size` records were wanted and `served` were given. -/
  | fetched (source : String) (size served : Nat)
  | fetchFailed (source : String) (size : Nat)
  | closed (source : String)
  deriving DecidableEq

/-- A source of records. -/
structure Source where
  name : String
  /-- The replies still to come. -/
  replies : List (Except SourceFailure (List Bytes))
  /-- The failure of closing, if closing fails. -/
  closing : Option SourceFailure
  /-- Whether closing does nothing at all. -/
  silent : Bool

namespace Source

/-- The number of records in a reply. -/
def replySize : Except SourceFailure (List Bytes) → Nat
  | .ok batch => batch.length
  | .error _ => 0

/-- The number of records still to come. -/
def remaining : List (Except SourceFailure (List Bytes)) → Nat
  | [] => 0
  | reply :: rest => replySize reply + remaining rest

/-- The event of a fetch with the given reply. -/
def fetchEvent (name : String) (size : Nat) : Except SourceFailure (List Bytes) → Event
  | .ok batch => .fetched name size batch.length
  | .error _ => .fetchFailed name size

/-- The next reply. -/
def fetch (source : Source) : Except SourceFailure (List Bytes) × Source :=
  match source.replies with
  | [] => (.ok [], source)
  | reply :: rest => (reply, { source with replies := rest })

/-- The result of closing. -/
def close (source : Source) : Except SourceFailure Unit :=
  match source.silent, source.closing with
  | false, some failure => .error failure
  | _, _ => .ok ()

/-- The event of closing. -/
def closeEvents (source : Source) : List Event :=
  if source.silent then [] else [.closed source.name]

/-! ### Replies -/

/-- Cuts records into batches of a size, which counts as one if it is zero. -/
def batches (size : Nat) : List Bytes → List (List Bytes)
  | [] => []
  | record :: rest =>
    (record :: rest.take (size - 1)) :: batches size (rest.drop (size - 1))
termination_by records => records.length
decreasing_by
  simp only [List.length_drop, List.length_cons]
  omega

/-- The replies that give batches, with a failure in between at a position (from one).  A position after
the empty batch that follows the last one is out of reach and changes nothing. -/
def repliesFailingAt (position : Option Nat) (failure : SourceFailure)
    (batches : List (List Bytes)) : List (Except SourceFailure (List Bytes)) :=
  match position with
  | some (before + 1) =>
    if before ≤ batches.length then
      (batches.take before).map .ok ++ .error failure :: (batches.drop before).map .ok
    else batches.map .ok
  | _ => batches.map .ok

end Source

end WideRow
