/-
**Calls for a line cut the data into pieces.**

Whatever its reads meet, bytes, reads that give nothing, failures, each call for a line uses up a
piece of the data, and the pieces of successive calls stand side by side.  A line is the whole piece
of its call.  A line that is too long has used up more than is handed out, and a call that fails has
lost the piece it had begun; but no byte is used twice, and none is skipped between two pieces.

What the calls have used up is also what has been taken from the source, but for the bytes that wait
in the buffer.  There are always fewer of them than the buffer holds, so that a buffer of one byte
keeps none.

Main definitions:

* `JobShell.Feed.firstLines` — the first pieces of a stream, cut at its newlines;
* `JobShell.Feed.afterLines` — a feed after some calls for a line;
* `JobShell.Feed.Cuts` — what an answer says of the piece that was used up for it.

Main results:

* `JobShell.Incoming.exists_piece` — the piece of one call, as a scan;
* `JobShell.Feed.exists_pieces` — the pieces of successive calls;
* `JobShell.Feed.afterLines_thrifty` — what waits in the buffer;
* `JobShell.Feed.readLines_sound` — **every line is a piece of the data, and no byte comes twice**;
* `JobShell.Feed.readLines_consumption` — **what is taken is what has been handled, and less than a
  buffer more**.
-/

import JobShell.Proofs.Input.Interruptions
import Mathlib.Data.List.Forall2
import Mathlib.Data.List.Infix

set_option autoImplicit false

namespace JobShell

/-! ### The piece of one call -/

namespace Incoming

/-- The byte that is met, if one is. -/
def byte? : Incoming → Option UInt8
  | .byte c => some c
  | .nothing | .failure _ => none

/-- The bytes that are met. -/
def bytes (items : List Incoming) : Bytes := items.filterMap byte?

theorem bytes_append (items items' : List Incoming) :
    bytes (items ++ items') = bytes items ++ bytes items' := List.filterMap_append

@[simp] theorem bytes_map_byte (s : Bytes) : bytes (s.map .byte) = s := by
  induction s with
  | nil => rfl
  | cons c s ih => exact congrArg (c :: ·) ih

variable {limit : Nat} {line : Bytes} {items : List Incoming}

/-- **A call uses up a piece**: the bytes `line` that have been read already, and what comes next.
No newline stands within it, and the call gives what the piece is read as, or it has failed. -/
theorem exists_piece (h : newline ∉ line) :
    ∃ piece, line ++ bytes items = piece ++ bytes (next limit line items).2 ∧
      newline ∉ piece.dropLast ∧
      ((next limit line items).1 = .ok (closed limit piece) ∨
        ∃ cause, .failure cause ∈ items ∧ (next limit line items).1 = .error cause) := by
  -- a piece ends at a newline, at the end of the input, or where a read fails
  induction items generalizing line with
  | nil => exact ⟨line, rfl, fun hmem => h (List.mem_of_mem_dropLast hmem), .inl rfl⟩
  | cons item items ih =>
      cases item with
      | nothing => exact ⟨line, rfl, fun hmem => h (List.mem_of_mem_dropLast hmem), .inl rfl⟩
      | failure cause =>
          rw [next]
          split
          · obtain ⟨piece, hsplit, hwithin, hgives⟩ := ih h
            refine ⟨piece, hsplit, hwithin, hgives.imp_right ?_⟩
            rintro ⟨cause', hmem, heq⟩
            exact ⟨cause', List.mem_cons_of_mem _ hmem, heq⟩
          · exact ⟨line, rfl, fun hmem => h (List.mem_of_mem_dropLast hmem),
              .inr ⟨cause, List.mem_cons_self, rfl⟩⟩
      | byte c =>
          have hmove : line ++ bytes (.byte c :: items) = line ++ [c] ++ bytes items := by
            rw [List.append_assoc]
            rfl
          rw [next, hmove]
          by_cases hc : c = newline
          · rw [if_pos hc]
            refine ⟨line ++ [c], rfl, by rwa [List.dropLast_concat], .inl ?_⟩
            rw [closed, if_neg (by simp)]
          · rw [if_neg hc]
            have hline : newline ∉ line ++ [c] := by
              rw [List.mem_append, List.mem_singleton]
              exact not_or.2 ⟨h, Ne.symm hc⟩
            obtain ⟨piece, hsplit, hwithin, hgives⟩ := ih hline
            refine ⟨piece, hsplit, hwithin, hgives.imp_right ?_⟩
            rintro ⟨cause, hmem, heq⟩
            exact ⟨cause, List.mem_cons_of_mem _ hmem, heq⟩

/-- What a call leaves was to come before. -/
theorem next_suffix (limit : Nat) (line : Bytes) (items : List Incoming) :
    (next limit line items).2 <:+ items := by
  fun_induction next limit line items with
  | case1 => exact List.suffix_refl _
  | case2 | case4 | case5 => exact List.suffix_cons _ _
  | case3 _ _ _ _ ih | case6 _ _ _ _ ih => exact ih.trans (List.suffix_cons _ _)

end Incoming

namespace Feed

open Incoming (closed)

variable {f g : Feed} {limit : Nat}

theorem bytes_incoming (f : Feed) : Incoming.bytes f.incoming = f.rest := by
  have hchunks : ∀ chunks : List Chunk,
      Incoming.bytes (chunks.flatMap Chunk.incoming) = chunks.flatMap Chunk.bytes := by
    intro chunks
    induction chunks with
    | nil => rfl
    | cons chunk chunks ih =>
        rw [List.flatMap_cons, List.flatMap_cons, Incoming.bytes_append, ih]
        rcases chunk with (_ | ⟨c, bytes⟩) | cause
        · rfl
        · exact congrArg (· ++ _) (Incoming.bytes_map_byte (c :: bytes))
        · rfl
  rw [incoming, Incoming.bytes_append, Incoming.bytes_map_byte, hchunks, rest]

/-- What an answer says of the piece that was used up for it: no newline stands within the piece, and
the answer is what the piece is read as, or a failure that was met. -/
def Cuts (limit : Nat) (met : List Incoming) (piece : Bytes) (answer : Except InputError Input) :
    Prop :=
  newline ∉ piece.dropLast ∧
    (answer = .ok (closed limit piece) ∨
      ∃ cause, .failure cause ∈ met ∧ answer = .error (.failed cause))

theorem Cuts.mono {met met' : List Incoming} {piece : Bytes} {answer : Except InputError Input}
    (h : Cuts limit met piece answer) (hmet : met ⊆ met') : Cuts limit met' piece answer :=
  ⟨h.1, h.2.imp_right fun ⟨cause, hmem, heq⟩ => ⟨cause, hmet hmem, heq⟩⟩

/-- The piece of one call. -/
theorem nextLine_piece (hcapacity : 1 ≤ f.capacity) (hlimit : limit + 1 < twoTo 64) :
    ∃ piece, f.rest = piece ++ (f.nextLine limit).2.rest ∧
      Cuts limit f.incoming piece (f.nextLine limit).1 := by
  obtain ⟨-, hgives, hleft⟩ := nextLine_next hcapacity hlimit
  obtain ⟨piece, hsplit, hwithin, hpiece⟩ :=
    @Incoming.exists_piece limit [] f.incoming List.not_mem_nil
  rw [List.nil_append, ← hleft, bytes_incoming, bytes_incoming] at hsplit
  refine ⟨piece, hsplit, hwithin, ?_⟩
  rw [hgives]
  rcases hpiece with heq | ⟨cause, hmem, heq⟩
  · exact .inl (by rw [heq]; rfl)
  · exact .inr ⟨cause, hmem, by rw [heq]; rfl⟩

/-! ### The pieces of successive calls -/

/-- The first pieces of a stream, a line each, and nothing where it has no more. -/
def firstLines (s : Bytes) (n : Nat) : List Bytes :=
  (List.range n).map fun i => (Bytes.lines s).getD i []

theorem firstLines_succ (s : Bytes) (n : Nat) :
    firstLines s (n + 1) =
      throughNewline s :: firstLines (s.drop (throughNewline s).length) n := by
  rw [firstLines, firstLines, List.range_succ_eq_map, List.map_cons, List.map_map]
  by_cases hs : s = []
  · have hlines : Bytes.lines [] = [] := by simp [Bytes.lines, Bytes.cutAfter]
    rw [hs, throughNewline, List.drop_nil, hlines]
    rfl
  · rw [lines_of_ne_nil hs]
    rfl

/-- Every call is answered. -/
theorem length_readLines (f : Feed) (n : Nat) : (f.readLines limit n).length = n := by
  induction n generalizing f with
  | zero => rfl
  | succ n ih => exact congrArg (· + 1) (ih _)

/-- A feed after some calls for a line. -/
def afterLines (limit : Nat) : Nat → Feed → Feed
  | 0, f => f
  | n + 1, f => afterLines limit n (f.nextLine limit).2

/-- **Successive calls use up pieces that stand side by side.**  If no read fails and none gives
nothing, they are the first pieces of the stream. -/
theorem exists_pieces (hcapacity : 1 ≤ f.capacity) (hlimit : limit + 1 < twoTo 64) (n : Nat) :
    ∃ pieces : List Bytes, f.rest = pieces.flatten ++ (f.afterLines limit n).rest ∧
      List.Forall₂ (Cuts limit f.incoming) pieces (f.readLines limit n) ∧
      (f.Steady → pieces = firstLines f.rest n) := by
  induction n generalizing f with
  | zero => exact ⟨[], rfl, .nil, fun _ => rfl⟩
  | succ n ih =>
      obtain ⟨hsame, -, hleft⟩ := nextLine_next hcapacity hlimit
      obtain ⟨piece, hsplit, hcuts⟩ := nextLine_piece hcapacity hlimit
      obtain ⟨pieces, hrest, hpieces, hfirst⟩ := ih (hsame ▸ hcapacity)
      have hmet : (f.nextLine limit).2.incoming ⊆ f.incoming :=
        hleft ▸ (Incoming.next_suffix limit [] f.incoming).subset
      refine ⟨piece :: pieces, ?_, .cons hcuts (hpieces.imp fun _ _ h => h.mono hmet), ?_⟩
      · rw [List.flatten_cons, List.append_assoc, hsplit]
        exact congrArg (piece ++ ·) hrest
      · intro hsteady
        obtain ⟨g, hg, hnext⟩ := hsteady.nextLine hlimit
        rw [hnext] at hsplit hfirst
        have hpiece : piece = throughNewline f.rest := by
          have hthrough : throughNewline f.rest ++ g.rest = f.rest :=
            hg.rest ▸ throughNewline_append_drop f.rest
          exact (List.append_cancel_right (hthrough.trans hsplit)).symm
        rw [firstLines_succ, hpiece, hfirst hg.steady, hg.rest]

/-- What calls for a line keep back has room in the buffer beside another byte. -/
theorem afterLines_thrifty (limit n : Nat) (h : f.Slack) : f.Thrifty (f.afterLines limit n) := by
  induction n generalizing f with
  | zero => exact .refl h
  | succ n ih =>
      have hfirst := nextLine_thrifty limit h
      exact hfirst.trans (ih hfirst.slack)

/-! ### Lines are pieces of the data -/

/-- What is read as a line is a line as it was, with a newline at its end if anywhere, and not too
long. -/
theorem Cuts.line {met : List Incoming} {piece text : Bytes}
    (h : Cuts limit met piece (.ok (.line text))) :
    text = piece ∧ text ≠ [] ∧ (content text).length ≤ limit ∧ newline ∉ text.dropLast := by
  obtain ⟨hwithin, heq | ⟨cause, -, heq⟩⟩ := h
  · have hline : Input.line text = closed limit piece := Except.ok.inj heq
    unfold closed at hline
    split at hline
    · cases hline
    · next hne =>
      unfold Input.ofPiece at hline
      split at hline
      · next hshort =>
        obtain rfl := Input.line.inj hline
        exact ⟨rfl, hne, hshort, hwithin⟩
      · cases hline
  · cases heq

/-- **Lines are sound under every behaviour of the source.**

The chunks of a feed are data, reads that give nothing and failures of any kind, in any order, and
its buffer holds at least one byte.  For every number of calls for a line there is a piece of the
data for each call, so that the pieces one after another are the beginning of the data.  A call that
gives a line gives its whole piece.  Such a line is not empty, it has at most `limit` bytes besides
its newline, and a newline stands at its end or nowhere.

So no line has bytes from two places, two lines have no byte in common and come in the order of the
data, and none is too long, whatever failed between and within them. -/
theorem readLines_sound (f : Feed) (hcapacity : 1 ≤ f.capacity) (hlimit : limit + 1 < twoTo 64)
    (n : Nat) :
    ∃ pieces : List Bytes, pieces.length = n ∧ pieces.flatten <+: f.rest ∧
      ∀ (i : Nat) (text : Bytes), (f.readLines limit n)[i]? = some (.ok (.line text)) →
        pieces[i]? = some text ∧ text ≠ [] ∧ (content text).length ≤ limit ∧
          newline ∉ text.dropLast := by
  obtain ⟨pieces, hrest, hpieces, -⟩ := exists_pieces hcapacity hlimit n
  have hlength : pieces.length = n := hpieces.length_eq.trans (length_readLines f n)
  refine ⟨pieces, hlength, ⟨_, hrest.symm⟩, fun i text hi => ?_⟩
  obtain ⟨hanswer, hanswered⟩ := List.getElem?_eq_some_iff.1 hi
  have hpiece : i < pieces.length := hpieces.length_eq ▸ hanswer
  have hcuts := List.forall₂_iff_get.1 hpieces |>.2 i hpiece hanswer
  rw [List.get_eq_getElem, List.get_eq_getElem, hanswered] at hcuts
  obtain ⟨htext, hline⟩ := hcuts.line
  exact ⟨List.getElem?_eq_some_iff.2 ⟨hpiece, htext.symm⟩, hline⟩

/-- An interruption before a line, a read that gives nothing and a failure within lines, and a line
that is too long, through a buffer of two bytes. -/
theorem readLines_sound_torn :
    let f : Feed := ⟨⟨[.failure .interrupted, .data (utf8 "ab\nc"), .data [], .data (utf8 "d"),
      .failure .other, .data (utf8 "efgh\ni")], 0⟩, 2, []⟩
    f.readLines 3 5 = [.ok (.line (utf8 "ab\n")), .ok (.line (utf8 "c")), .error (.failed .other),
        .ok .malformed, .ok (.line (utf8 "i"))] ∧
      ∃ pieces : List Bytes, pieces.length = 5 ∧ pieces.flatten <+: utf8 "ab\ncdefgh\ni" ∧
        pieces[0]? = some (utf8 "ab\n") ∧ pieces[1]? = some (utf8 "c") ∧
        pieces[4]? = some (utf8 "i") := by
  intro f
  have hreads : f.readLines 3 5 = [.ok (.line (utf8 "ab\n")), .ok (.line (utf8 "c")),
      .error (.failed .other), .ok .malformed, .ok (.line (utf8 "i"))] := by
    rw [readLines_answers (by decide) (by decide)]
    rfl
  obtain ⟨pieces, hlength, hprefix, hlines⟩ :=
    readLines_sound f (by decide) (show 3 + 1 < twoTo 64 by decide) 5
  rw [hreads] at hlines
  exact ⟨hreads, pieces, hlength, hprefix, (hlines 0 _ rfl).1, (hlines 1 _ rfl).1,
    (hlines 4 _ rfl).1⟩

/-! ### What is taken -/

/-- A stream without failures has none to be met. -/
theorem failure_notMem_arriving (capacity : Nat) (chunks : List Bytes) (cause : ReadFailure) :
    .failure cause ∉ (arriving capacity chunks).incoming := by
  intro hmem
  obtain ⟨chunk, hchunk, hmem⟩ := List.mem_flatMap.1 (show .failure cause ∈
    (chunks.map Chunk.data).flatMap Chunk.incoming from hmem)
  obtain ⟨bytes, -, rfl⟩ := List.mem_map.1 hchunk
  cases bytes with
  | nil => simp [Chunk.incoming] at hmem
  | cons c bytes => simp [Chunk.incoming] at hmem

theorem rest_arriving (capacity : Nat) (chunks : List Bytes) :
    (arriving capacity chunks).rest = chunks.flatten := by
  simp [arriving, rest, List.flatMap_def, Function.comp_def, Chunk.bytes]

/-- A stream without failures is cut into what its calls give. -/
theorem Cuts.arriving {capacity : Nat} {chunks pieces : List Bytes}
    {answers : List (Except InputError Input)}
    (h : List.Forall₂ (Cuts limit (arriving capacity chunks).incoming) pieces answers) :
    answers = pieces.map (fun piece => .ok (closed limit piece)) ∧
      ∀ piece ∈ pieces, newline ∉ piece.dropLast := by
  induction h with
  | nil => exact ⟨rfl, fun _ hmem => absurd hmem List.not_mem_nil⟩
  | cons hcuts _ ih =>
      obtain ⟨hwithin, hanswer⟩ := hcuts
      refine ⟨?_, List.forall_mem_cons.2 ⟨hwithin, ih.2⟩⟩
      rcases hanswer with heq | ⟨cause, hmem, -⟩
      · rw [List.map_cons, ← ih.1, heq]
      · exact absurd hmem (failure_notMem_arriving capacity chunks cause)

/-- What the source has left is the stream without what has been taken. -/
theorem Thrifty.left_arriving {capacity : Nat} {chunks : List Bytes} {handled : Bytes}
    (h : (arriving capacity chunks).Thrifty g) (hrest : chunks.flatten = handled ++ g.rest) :
    handled.length ≤ g.source.taken ∧ g.source.taken ≤ handled.length + (capacity - 1) ∧
      g.left = chunks.flatten.drop g.source.taken := by
  have hslack : g.buffer.length < capacity := lt_of_lt_of_eq h.slack h.capacity
  have hstock : g.source.taken + g.left.length = chunks.flatten.length := by
    rw [← rest_arriving capacity chunks]
    exact h.stock.trans (Nat.zero_add _)
  have hbuffer : g.rest = g.buffer ++ g.left := rfl
  have htaken : g.source.taken = (handled ++ g.buffer).length := by
    have hlength := congrArg List.length hrest
    rw [hbuffer, List.length_append, List.length_append] at hlength
    rw [List.length_append]
    omega
  rw [List.length_append] at htaken
  refine ⟨by omega, by omega, ?_⟩
  rw [hrest, hbuffer, ← List.append_assoc, htaken, ← List.length_append, List.drop_left]

/-- **What a reader takes is exact.**

A stream arrives in chunks, without failures, and is read through a buffer of at least one byte.
Some chunks may be empty: then a read gives nothing.  After any number of calls for a line there is a
piece of the stream for each of them, with a newline at its end or nowhere.

* The call gives what its piece is read as: the line it is, that it was too long, or, if there was
  nothing, the end.  If no chunk is empty, the pieces are those between the newlines of the stream.
* The bytes taken from the source are those of the pieces, too long ones and newlines included, and
  at most `capacity - 1` more; what the source has left is the stream from there.
* With a buffer of one byte, they are those of the pieces alone, and what the source has left is
  exactly the stream after the last piece. -/
theorem readLines_consumption {capacity : Nat} (chunks : List Bytes) (hcapacity : 1 ≤ capacity)
    (hlimit : limit + 1 < twoTo 64) (n : Nat) :
    let f := arriving capacity chunks
    let g := f.afterLines limit n
    ∃ pieces : List Bytes,
      (f.readLines limit n = pieces.map (fun piece =>
          .ok (if piece = [] then .endOfInput else .ofPiece limit piece)) ∧
        (∀ piece ∈ pieces, newline ∉ piece.dropLast) ∧ pieces.flatten <+: chunks.flatten ∧
        ((∀ chunk ∈ chunks, chunk ≠ []) →
          pieces = (List.range n).map fun i => (Bytes.lines chunks.flatten).getD i [])) ∧
      (pieces.flatten.length ≤ g.source.taken ∧
        g.source.taken ≤ pieces.flatten.length + (capacity - 1) ∧
        g.source.chunks.flatMap Chunk.bytes = chunks.flatten.drop g.source.taken) ∧
      (capacity = 1 → g.source.taken = pieces.flatten.length ∧
        g.source.chunks.flatMap Chunk.bytes = chunks.flatten.drop pieces.flatten.length) := by
  intro f g
  obtain ⟨pieces, hrest, hpieces, hfirst⟩ := exists_pieces (f := f) hcapacity hlimit n
  obtain ⟨hanswers, hwithin⟩ := Cuts.arriving hpieces
  have hslack : f.Slack := hcapacity
  rw [rest_arriving] at hrest
  obtain ⟨hless, hmost, hleft⟩ := (afterLines_thrifty limit n hslack).left_arriving hrest
  refine ⟨pieces, ⟨hanswers, hwithin, ⟨_, hrest.symm⟩, fun hchunks => ?_⟩, ⟨hless, hmost, hleft⟩,
    fun hone => ?_⟩
  · have hsteady : f.Steady := by
      refine ⟨hcapacity, fun chunk hchunk => ?_⟩
      obtain ⟨bytes, hbytes, rfl⟩ := List.mem_map.1 hchunk
      exact ⟨bytes, hchunks bytes hbytes, rfl⟩
    rw [hfirst hsteady, rest_arriving]
    rfl
  · have htaken : g.source.taken = pieces.flatten.length := by
      subst hone
      exact Nat.le_antisymm hmost hless
    exact ⟨htaken, htaken ▸ hleft⟩

/-- A line that is too long, then a line, and a call in between: a buffer of one byte leaves the
second line for others. -/
theorem readLines_consumption_spared :
    let f := arriving 1 [utf8 "abc", utf8 "d
x", utf8 "y
z"]
    (f.readLines 2 1 = [.ok .malformed]) ∧ (f.afterLines 2 1).source.taken = 5 ∧
      (f.afterLines 2 1).source.chunks.flatMap Chunk.bytes = utf8 "xy
z" := by
  intro f
  obtain ⟨pieces, ⟨hreads, -, -, hfirst⟩, -, hone⟩ :=
    readLines_consumption [utf8 "abc", utf8 "d
x", utf8 "y
z"] (Nat.le_refl 1)
      (show 2 + 1 < twoTo 64 by decide) 1
  obtain rfl : pieces = [utf8 "abcd
"] := hfirst (by decide)
  exact ⟨hreads, hone rfl⟩

end Feed

end JobShell
