/-
**Where bytes come from.**

A source hands out bytes in chunks: one read never crosses the end of a chunk, and in place of a
chunk a read may fail.  A feed puts a buffer in front of a source: it reads only when its buffer
is empty, and then at most as much as the buffer holds.

Main definitions:

* `JobShell.Chunk`, `JobShell.Source` — what reads will meet, and how much has been taken;
* `JobShell.Feed` — a source behind a buffer;
* `JobShell.Feed.fill`, `JobShell.Feed.consume` — refilling the buffer and using it up.

Main results:

* `JobShell.Feed.size_fill_le`, `JobShell.Feed.size_fill_lt`, `JobShell.Feed.size_consume` — what
  is left in a feed never grows, and shrinks with each failure and each byte used.
-/

import JobShell.Number

set_option autoImplicit false

namespace JobShell

/-- Why a read fails. -/
inductive ReadFailure where
  | interrupted
  | wouldBlock
  | brokenPipe
  | other
  deriving DecidableEq, Repr, Inhabited

/-- What one or more reads will meet. -/
inductive Chunk where
  | data (bytes : Bytes)
  | failure (cause : ReadFailure)
  deriving DecidableEq, Repr

/-- The chunks that are still to come, and the number of bytes taken so far.  After the last chunk
every read is at the end. -/
structure Source where
  chunks : List Chunk
  taken : Nat := 0
  deriving DecidableEq, Repr

/-- The reads and bytes that a chunk is good for. -/
def Chunk.size : Chunk → Nat
  | .data bytes => bytes.length + 1
  | .failure _ => 1

/-- The reads and bytes that a source is good for. -/
def Source.size (s : Source) : Nat := total (s.chunks.map Chunk.size)

/-- Reads at most `room` bytes.  What a chunk has beyond that stays for the next read. -/
def Source.read (room : Nat) (s : Source) : Except ReadFailure Bytes × Source :=
  match s.chunks with
  | [] => (.ok [], s)
  | .failure cause :: chunks => (.error cause, { s with chunks := chunks })
  | .data bytes :: chunks =>
    let got := bytes.take room
    let left := bytes.drop room
    (.ok got,
      { chunks := if left = [] then chunks else .data left :: chunks
        taken := s.taken + got.length })

/-- A source behind a buffer of some capacity. -/
structure Feed where
  source : Source
  capacity : Nat := 8192
  buffer : Bytes := []
  deriving DecidableEq, Repr

namespace Feed

/-- The reads and bytes that a feed is good for. -/
def size (f : Feed) : Nat := f.buffer.length + f.source.size

/-- Reads into the buffer if it is empty. -/
def fill (f : Feed) : Except ReadFailure Unit × Feed :=
  if f.buffer = [] then
    match f.source.read f.capacity with
    | (.ok got, source) => (.ok (), { f with source := source, buffer := got })
    | (.error cause, source) => (.error cause, { f with source := source })
  else (.ok (), f)

/-- Drops bytes from the front of the buffer. -/
def consume (n : Nat) (f : Feed) : Feed := { f with buffer := f.buffer.drop n }

theorem size_fill_le (f : Feed) : f.fill.2.size ≤ f.size := by
  unfold fill
  split
  · next h =>
    unfold Source.read
    rcases hc : f.source.chunks with _ | ⟨_ | _, chunks⟩
    · simp [size, h]
    · next bytes =>
      simp only [size, h, Source.size, hc, List.map_cons, total, Chunk.size]
      split
      · simp only [List.length_take, List.length_nil]
        omega
      · simp only [List.length_take, List.length_nil, List.map_cons, total, Chunk.size,
          List.length_drop]
        omega
    · simp [size, h, Source.size, hc, total]
  · exact Nat.le_refl _

theorem size_fill_lt {f g : Feed} {cause : ReadFailure} (h : f.fill = (.error cause, g)) :
    g.size < f.size := by
  unfold fill at h
  split at h
  · next hb =>
    unfold Source.read at h
    rcases hc : f.source.chunks with _ | ⟨_ | _, chunks⟩
    · simp [hc] at h
    · simp [hc] at h
    · simp only [hc, Prod.mk.injEq] at h
      rw [← h.2]
      simp [size, hb, Source.size, hc, Chunk.size, total]
  · simp at h

theorem size_consume (n : Nat) (f : Feed) (h : n ≤ f.buffer.length) :
    (f.consume n).size + n = f.size := by
  simp only [size, consume, List.length_drop]
  omega

end Feed

end JobShell
