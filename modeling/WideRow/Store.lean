import WideRow.Plan.Scanner

/-!
# Stores in memory

A store holds records in a list and opens scans of them.  A scan serves, in the order of the list, the
records whose keys lie in one of its ranges and that every filter accepts.  Bytes that are no record are
served whatever the ranges and filters, so that the scan reports them.

A store can be told to fail: at one of its openings, at one of the fetches of every source, or when a
source is closed.
-/

namespace WideRow

/-- Records in memory, and when to fail. -/
structure Store where
  records : List Bytes
  /-- Batches that every source serves in place of the records. -/
  batches : Option (List (List Bytes))
  /-- How many scans have been opened. -/
  openings : Nat
  failOpening : Option Nat
  failFetch : Option Nat
  failClose : Bool
  failure : SourceFailure

namespace Store

/-- Whether a scan serves a record. -/
def serves (request : ScanRequest) (record : Bytes) : Fallible Bool :=
  match Row.ofRecord record with
  | .error _ => .ok true
  | .ok row =>
    if request.ranges.any fun range => range.containsRow row then
      ColumnFilter.allAccept row request.filters
    else .ok false

/-- The records that a scan serves. -/
def select (request : ScanRequest) : List Bytes → Fallible (List Bytes)
  | [] => .ok []
  | record :: rest => do
    let served ← serves request record
    let others ← select request rest
    return if served then record :: others else others

/-- The source of a scan with the given number. -/
def source (store : Store) (number size : Nat) (records : List Bytes) : Source where
  name := toString number
  replies :=
    Source.repliesFailingAt store.failFetch store.failure
      (store.batches.getD (Source.batches size records))
  closing := if store.failClose then some store.failure else none
  silent := false

/-- Opens a scan. -/
def openScan (store : Store) (request : ScanRequest) : Except SourceFailure Source × Store :=
  let number := store.openings + 1
  let store := { store with openings := number }
  if store.failOpening = some number then (.error store.failure, store)
  else
    match select request store.records with
    | .error fault => (.error ⟨[fault.message]⟩, store)
    | .ok records => (.ok (store.source number request.fetchSize records), store)

instance : Opener Store where
  openScan := openScan

end Store

end WideRow
