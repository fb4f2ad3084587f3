import Mathlib.Algebra.Order.Ring.Int
import McManager.Framework.Utf8

namespace McManager.Tailing

open Framework

/-- What stands at the end of a line that has been cut. -/
def sentinel : String := " ...[line truncated]"

/-- `_truncate_log_line`. -/
def truncateLogLine (line : String) (maxLineBytes : Nat) : String :=
  let encoded := Utf8.encode line
  if encoded.length ≤ maxLineBytes then line
  else
    let sentinelBytes := Utf8.encode sentinel
    if maxLineBytes < sentinelBytes.length then
      String.ofList (sentinel.toList.take maxLineBytes)
    else
      Utf8.decodeIgnore (encoded.take (maxLineBytes - sentinelBytes.length)) ++ sentinel

/-- A `deque` with a bound: the newest entries that fit. -/
def bounded {α : Type} (maxlen : Nat) (entries : List α) : List α :=
  entries.drop (entries.length - maxlen)

/-- `RingBuffer`; a subscription is known by its number. -/
structure RingBuffer where
  maxlen : Nat
  buffer : List (Nat × String) := []
  nextLineNo : Nat := 0
  subscribers : List Nat := []
  deriving DecidableEq

namespace RingBuffer

/-- `append` up to where it gives up the lock: what the subscribers get is handed over after it. -/
def append (b : RingBuffer) (line : String) : RingBuffer :=
  { b with
    buffer := bounded b.maxlen (b.buffer ++ [(b.nextLineNo, line)])
    nextLineNo := b.nextLineNo + 1 }

/-- `tail`. -/
def tail (b : RingBuffer) (sinceOffset : Int) : List (Nat × String) :=
  b.buffer.filter fun item => sinceOffset ≤ item.1

/-- `trimmed`. -/
def trimmed (b : RingBuffer) (sinceOffset : Int) : Bool :=
  match b.buffer with
  | [] => sinceOffset > 0
  | oldest :: _ => sinceOffset < oldest.1

/-- `clear`. -/
def clear (b : RingBuffer) : RingBuffer := { b with buffer := [] }

/-- `subscribe`. -/
def subscribe (b : RingBuffer) (subscription : Nat) : RingBuffer :=
  { b with subscribers := b.subscribers ++ [subscription] }

/-- The calls on a buffer. -/
inductive Call
  | append (line : String)
  | clear
  | tail (sinceOffset : Int)

/-- A call, and what `tail` returns. -/
def call (b : RingBuffer) : Call → RingBuffer × List (Nat × String)
  | .append line => (b.append line, [])
  | .clear => (b.clear, [])
  | .tail sinceOffset => (b, b.tail sinceOffset)

/-- A new buffer after a sequence of calls. -/
def after (maxlen : Nat) (calls : List Call) : RingBuffer :=
  calls.foldl (fun b c => (b.call c).1) { maxlen }

end RingBuffer

end McManager.Tailing
