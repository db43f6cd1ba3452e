/-
**Reading lines of bounded length.**

A line ends at its newline or at the end of the input.  At most one byte more than the greatest
length is read for it; if there is no newline among them the line is too long, and it is dropped
up to its newline.  The limit is a number of 64 bits and so is the number of bytes to read, so the
greatest limit of all leaves no room for that one byte more.

Main definitions:

* `JobShell.Input`, `JobShell.InputError` — what a call for a line gives;
* `JobShell.throughNewline` — the beginning of a buffer up to a newline;
* `JobShell.Feed.piece` — what a buffer holds of the current line;
* `JobShell.Feed.readUntil`, `JobShell.Feed.discardLine` — the two loops;
* `JobShell.Feed.nextLine` — the next line of a feed.
-/

import JobShell.Input.Feed

set_option autoImplicit false
set_option linter.unusedVariables false

namespace JobShell

/-- What a call for a line gives. -/
inductive Input where
  /-- A line, with its newline if it has one. -/
  | line (text : Bytes)
  /-- A line that was too long.  It has been dropped. -/
  | malformed
  | endOfInput
  deriving DecidableEq, Repr

/-- Why a call for a line fails. -/
inductive InputError where
  | failed (cause : ReadFailure)
  /-- The limit is the greatest number of 64 bits. -/
  | overflow
  deriving DecidableEq, Repr

/-- The beginning of a byte string through its first newline; all of it if there is none. -/
def throughNewline : Bytes → Bytes
  | [] => []
  | c :: s => if c = newline then [c] else c :: throughNewline s

theorem length_throughNewline_le (s : Bytes) : (throughNewline s).length ≤ s.length := by
  induction s with
  | nil => exact Nat.le_refl _
  | cons c s ih =>
    unfold throughNewline
    split
    · simp
    · simp only [List.length_cons]
      omega

namespace Feed

/-- What the buffer holds of the current line, at most `limit` bytes. -/
def piece (limit : Nat) (f : Feed) : Bytes := throughNewline (f.buffer.take limit)

theorem length_piece_le (limit : Nat) (f : Feed) : (f.piece limit).length ≤ f.buffer.length := by
  have h := length_throughNewline_le (f.buffer.take limit)
  simp only [List.length_take] at h
  simp only [piece]
  omega

/-- Using up a non-empty piece after a refill leaves less in the feed. -/
theorem size_consume_piece_lt {f g : Feed} {limit : Nat} (hf : f.fill = (.ok (), g))
    (hp : g.piece limit ≠ []) : (g.consume (g.piece limit).length).size < f.size := by
  have h₁ := size_fill_le f
  rw [hf] at h₁
  have h₂ := size_consume (g.piece limit).length g (length_piece_le limit g)
  have h₃ : 0 < (g.piece limit).length := List.length_pos_iff.2 hp
  simp only at h₁
  omega

/-- Reads through the next newline, but at most `limit` bytes, after the bytes `line` that have
been read already.  An interrupted read is tried again; any other failure loses what was read. -/
def readUntil (limit : Nat) (line : Bytes) (f : Feed) : Except ReadFailure Bytes × Feed :=
  if limit = 0 then (.ok line, f)
  else
    match hf : f.fill with
    | (.error .interrupted, g) => readUntil limit line g
    | (.error cause, g) => (.error cause, g)
    | (.ok (), g) =>
      if hp : g.piece limit = [] then (.ok line, g)
      else if (g.piece limit).getLast? = some newline then
        (.ok (line ++ g.piece limit), g.consume (g.piece limit).length)
      else
        readUntil (limit - (g.piece limit).length) (line ++ g.piece limit)
          (g.consume (g.piece limit).length)
termination_by f.size
decreasing_by
  · exact size_fill_lt hf
  · exact size_consume_piece_lt hf hp

/-- Drops bytes through the next newline, or to the end.  Every failure ends it. -/
def discardLine (f : Feed) : Except ReadFailure Unit × Feed :=
  match hf : f.fill with
  | (.error cause, g) => (.error cause, g)
  | (.ok (), g) =>
    if hp : g.piece g.buffer.length = [] then (.ok (), g)
    else if (g.piece g.buffer.length).getLast? = some newline then
      (.ok (), g.consume (g.piece g.buffer.length).length)
    else discardLine (g.consume (g.piece g.buffer.length).length)
termination_by f.size
decreasing_by exact size_consume_piece_lt hf hp

/-- The next line of at most `limit` bytes besides its newline. -/
def nextLine (limit : Nat) (f : Feed) : Except InputError Input × Feed :=
  if twoTo 64 ≤ limit + 1 then (.error .overflow, f)
  else
    match f.readUntil (limit + 1) [] with
    | (.error cause, g) => (.error (.failed cause), g)
    | (.ok line, g) =>
      if line = [] then (.ok .endOfInput, g)
      else if line.getLast? ≠ some newline ∧ line.length = limit + 1 then
        match g.discardLine with
        | (.error cause, g) => (.error (.failed cause), g)
        | (.ok (), g) => (.ok .malformed, g)
      else (.ok (.line line), g)

end Feed

end JobShell
