/-
**Reading lines does not depend on how bytes arrive.**

A stream reaches the reader in chunks, through a buffer of some capacity, and the reader cuts it
again where its limit falls.  None of this shows in what it gives: the stream is cut after each
newline, every piece is a line or too long, and after the last piece the input is at its end.  The
proofs forget the buffer and the chunks at once.  All that a feed without failures has is the bytes
that are still to come, and each of the two loops takes a beginning of them: through the newline,
and, for a line, within the limit.

Main definitions:

* `JobShell.Feed.Steady`, `JobShell.Feed.rest` — a feed without failures, and what is still to come;
* `JobShell.Input.ofPiece`, `JobShell.Input.answers` — what a stream is read as;
* `JobShell.Feed.readLines` — many calls for a line.

Main results:

* `JobShell.Feed.Steady.readUntil`, `JobShell.Feed.Steady.discardLine` — what the loops take;
* `JobShell.Feed.Steady.nextLine` — one call for a line;
* `JobShell.Feed.readLines_arriving` — **every way of arriving gives the same lines**.
-/

import JobShell.Input.LineReader

set_option autoImplicit false

namespace JobShell

/-! ### Through the first newline -/

theorem throughNewline_append (s t : Bytes) :
    throughNewline (s ++ t) =
      if newline ∈ s then throughNewline s else s ++ throughNewline t := by
  induction s with
  | nil => simp
  | cons c s ih =>
      by_cases hc : c = newline
      · simp [throughNewline, hc]
      · have hmem : newline ∈ c :: s ↔ newline ∈ s := by simp [Ne.symm hc]
        simp only [List.cons_append, throughNewline, hc, if_false, ih, hmem]
        split <;> rfl

theorem throughNewline_of_not_mem {s : Bytes} (h : newline ∉ s) : throughNewline s = s := by
  have happend := throughNewline_append s []
  rwa [List.append_nil, if_neg h, throughNewline, List.append_nil] at happend

/-- What ends with a newline had one. -/
theorem getLast?_throughNewline {s : Bytes} :
    (throughNewline s).getLast? = some newline ↔ newline ∈ s := by
  induction s with
  | nil => simp [throughNewline]
  | cons c s ih =>
      by_cases hc : c = newline
      · simp [throughNewline, hc]
      · have hmem : newline ∈ c :: s ↔ newline ∈ s := by simp [Ne.symm hc]
        rw [hmem, ← ih]
        simp only [throughNewline, hc, if_false]
        cases hs : throughNewline s with
        | nil => simp [hc]
        | cons d t => simp

theorem throughNewline_eq_nil {s : Bytes} : throughNewline s = [] ↔ s = [] := by
  cases s with
  | nil => simp [throughNewline]
  | cons c s =>
      unfold throughNewline
      split <;> simp

theorem throughNewline_append_drop (s : Bytes) :
    throughNewline s ++ s.drop (throughNewline s).length = s := by
  induction s with
  | nil => rfl
  | cons c s ih =>
      unfold throughNewline
      split
      · rfl
      · rw [List.length_cons, List.drop_succ_cons, List.cons_append, ih]

/-- **The pieces of a stream, from the front.** -/
theorem lines_of_ne_nil {s : Bytes} (h : s ≠ []) :
    Bytes.lines s =
      throughNewline s :: Bytes.lines (s.drop (throughNewline s).length) := by
  unfold Bytes.lines
  induction s with
  | nil => exact absurd rfl h
  | cons c s ih =>
      by_cases hc : c = newline
      · simp [Bytes.cutAfter, throughNewline, hc]
      · simp only [Bytes.cutAfter, throughNewline, hc, if_false]
        cases s with
        | nil => simp [Bytes.cutAfter, throughNewline]
        | cons d s =>
            rw [ih (by simp)]
            simp

/-! ### Feeds without failures -/

/-- The bytes of a chunk. -/
def Chunk.bytes : Chunk → Bytes
  | .data bytes => bytes
  | .failure _ => []

namespace Feed

/-- No read of the feed fails, and none of them gives nothing before the end. -/
structure Steady (f : Feed) : Prop where
  capacity : 1 ≤ f.capacity
  chunks : ∀ chunk ∈ f.source.chunks, ∃ bytes, bytes ≠ [] ∧ chunk = .data bytes

/-- What is still to come. -/
def rest (f : Feed) : Bytes := f.buffer ++ f.source.chunks.flatMap Chunk.bytes

variable {f g : Feed}

/-- A refill takes nothing away, and it leaves the buffer empty only at the end. -/
theorem Steady.fill (h : f.Steady) :
    ∃ g, f.fill = (.ok (), g) ∧ g.Steady ∧ g.rest = f.rest ∧ (g.buffer = [] → g.rest = []) := by
  unfold Feed.fill
  by_cases hbuffer : f.buffer = []
  · rw [if_pos hbuffer]
    unfold Source.read
    cases hchunks : f.source.chunks with
    | nil =>
        have hend : f.rest = [] := by simp [rest, hbuffer, hchunks]
        refine ⟨{ f with buffer := [] }, rfl, ⟨h.capacity, h.chunks⟩, ?_, fun _ => ?_⟩
        · simp [rest, hbuffer]
        · simpa [rest, hbuffer] using hend
    | cons chunk chunks =>
        obtain ⟨bytes, hbytes, rfl⟩ := h.chunks chunk (by simp [hchunks])
        have htail : ∀ chunk ∈ chunks, ∃ bytes, bytes ≠ [] ∧ chunk = .data bytes :=
          fun chunk hchunk => h.chunks chunk (by simp [hchunks, hchunk])
        have hgot : bytes.take f.capacity ≠ [] := by
          have hcapacity := h.capacity
          rw [Ne, List.take_eq_nil_iff]
          rintro (hzero | hnil)
          · omega
          · exact hbytes hnil
        refine ⟨_, rfl, ⟨h.capacity, ?_⟩, ?_, fun hnil => absurd hnil hgot⟩
        · -- what the read leaves of the chunk is again a chunk, if it is anything
          by_cases hleft : bytes.drop f.capacity = []
          · simpa [hleft] using htail
          · simpa [hleft] using htail
        · have hsplit := List.take_append_drop f.capacity bytes
          by_cases hleft : bytes.drop f.capacity = []
          · rw [hleft, List.append_nil] at hsplit
            simp [rest, hbuffer, hchunks, hleft, hsplit, Chunk.bytes]
          · simp [rest, hbuffer, hchunks, hleft, Chunk.bytes, ← List.append_assoc, hsplit]
  · rw [if_neg hbuffer]
    exact ⟨f, rfl, h, rfl, fun hnil => absurd hnil hbuffer⟩

/-- Bytes of the buffer that are used up are taken from what is to come. -/
theorem Steady.consume (h : f.Steady) {n : Nat} (hn : n ≤ f.buffer.length) :
    (f.consume n).Steady ∧ (f.consume n).rest = f.rest.drop n := by
  refine ⟨⟨h.capacity, h.chunks⟩, ?_⟩
  simp only [rest, Feed.consume]
  rw [List.drop_append_of_le_length hn]

/-! ### What the buffer gives of a line -/

/-- What the buffer has is the beginning of what is to come. -/
theorem exists_rest_eq (f : Feed) (n : Nat) : ∃ more, f.rest = f.buffer.take n ++ more := by
  refine ⟨f.buffer.drop n ++ f.source.chunks.flatMap Chunk.bytes, ?_⟩
  rw [← List.append_assoc, List.take_append_drop, rest]

theorem piece_of_not_mem {n : Nat} (h : newline ∉ f.buffer.take n) :
    f.piece n = f.buffer.take n := throughNewline_of_not_mem h

/-- There is nothing to give only when the buffer is empty. -/
theorem piece_eq_nil {n : Nat} (hn : n ≠ 0) : f.piece n = [] ↔ f.buffer = [] := by
  rw [piece, throughNewline_eq_nil, List.take_eq_nil_iff, or_iff_right hn]

/-- The whole buffer gives a piece unless it is empty. -/
theorem piece_buffer_eq_nil : f.piece f.buffer.length = [] ↔ f.buffer = [] := by
  rw [piece, List.take_length, throughNewline_eq_nil]

theorem getLast?_piece {n : Nat} :
    (f.piece n).getLast? = some newline ↔ newline ∈ f.buffer.take n :=
  getLast?_throughNewline

/-- A piece is the beginning of the line; if it has no newline the line goes on behind it. -/
theorem throughNewline_rest (f : Feed) (n : Nat) :
    throughNewline f.rest =
      if newline ∈ f.buffer.take n then f.piece n
      else f.piece n ++ throughNewline (f.rest.drop (f.piece n).length) := by
  obtain ⟨more, hmore⟩ := exists_rest_eq f n
  rw [hmore, throughNewline_append]
  split
  · rfl
  · next hmem => rw [piece_of_not_mem hmem, List.drop_left]

/-- The same within a limit, of which the piece uses up some. -/
theorem throughNewline_take_rest (f : Feed) (limit : Nat) :
    throughNewline (f.rest.take limit) =
      if newline ∈ f.buffer.take limit then f.piece limit
      else f.piece limit ++ throughNewline
        ((f.rest.drop (f.piece limit).length).take (limit - (f.piece limit).length)) := by
  obtain ⟨more, hmore⟩ := exists_rest_eq f limit
  have hlength : (f.buffer.take limit).length ≤ limit := by
    rw [List.length_take]
    omega
  rw [hmore, List.take_append, List.take_of_length_le hlength, throughNewline_append]
  split
  · rfl
  · next hmem => rw [piece_of_not_mem hmem, List.drop_left]

/-! ### The two loops -/

/-- A feed from whose front the bytes `taken` have been taken. -/
structure Leaves (f : Feed) (taken : Bytes) (g : Feed) : Prop where
  steady : g.Steady
  rest : g.rest = f.rest.drop taken.length

/-- **What is read of a line** is what is to come through the newline, within the limit. -/
theorem Steady.readUntil (h : f.Steady) (limit : Nat) (line : Bytes) :
    ∃ g, f.readUntil limit line = (.ok (line ++ throughNewline (f.rest.take limit)), g) ∧
      f.Leaves (throughNewline (f.rest.take limit)) g := by
  -- each round leaves less in the feed
  induction hsize : f.size using Nat.strongRecOn generalizing f limit line with
  | ind size ih =>
      subst hsize
      rw [Feed.readUntil]
      by_cases hlimit : limit = 0
      · rw [if_pos hlimit, hlimit]
        exact ⟨f, by simp [throughNewline], h, by simp [throughNewline]⟩
      rw [if_neg hlimit]
      obtain ⟨g, hfill, hg, hrest, hend⟩ := h.fill
      obtain ⟨hsteady, hconsume⟩ := hg.consume (length_piece_le limit g)
      split
      · next heq => simp [hfill] at heq
      · next heq => simp [hfill] at heq
      next g' heq =>
      obtain rfl : g = g' := by simpa [hfill] using heq
      rw [← hrest]
      by_cases hpiece : g.piece limit = []
      · have hnil : g.rest = [] := hend ((piece_eq_nil hlimit).1 hpiece)
        refine ⟨g, by simp [hpiece, hnil, throughNewline], hg, by simp [hrest.symm, hnil]⟩
      rw [dif_neg hpiece]
      have htake := throughNewline_take_rest g limit
      by_cases hlast : (g.piece limit).getLast? = some newline
      · rw [if_pos (getLast?_piece.1 hlast)] at htake
        rw [if_pos hlast, htake]
        exact ⟨_, rfl, hsteady, by rw [hconsume, hrest]⟩
      · rw [if_neg fun hmem => hlast (getLast?_piece.2 hmem)] at htake
        rw [if_neg hlast, htake]
        obtain ⟨u, hread, hu⟩ := ih _ (size_consume_piece_lt hfill hpiece) hsteady
          (limit - (g.piece limit).length) (line ++ g.piece limit) rfl
        rw [hconsume] at hread hu
        refine ⟨u, by rw [hread, List.append_assoc], hu.steady, ?_⟩
        rw [hu.rest, hconsume, List.drop_drop, List.length_append, hrest]

/-- **What is dropped of a line** is what is to come through the newline. -/
theorem Steady.discardLine (h : f.Steady) :
    ∃ g, f.discardLine = (.ok (), g) ∧ f.Leaves (throughNewline f.rest) g := by
  -- each piece that is dropped leaves less to come
  induction hsize : f.size using Nat.strongRecOn generalizing f with
  | ind size ih =>
      subst hsize
      rw [Feed.discardLine]
      obtain ⟨g, hfill, hg, hrest, hend⟩ := h.fill
      obtain ⟨hsteady, hconsume⟩ := hg.consume (length_piece_le g.buffer.length g)
      split
      · next heq => simp [hfill] at heq
      next g' heq =>
      obtain rfl : g = g' := by simpa [hfill] using heq
      rw [← hrest]
      by_cases hpiece : g.piece g.buffer.length = []
      · have hbuffer : g.buffer = [] := by
          by_cases hzero : g.buffer.length = 0
          · exact List.length_eq_zero_iff.1 hzero
          · exact (piece_eq_nil hzero).1 hpiece
        have hnil : g.rest = [] := hend hbuffer
        exact ⟨g, by simp [hpiece], hg, by simp [hrest.symm, hnil]⟩
      rw [dif_neg hpiece]
      have hline := throughNewline_rest g g.buffer.length
      by_cases hlast : (g.piece g.buffer.length).getLast? = some newline
      · rw [if_pos (getLast?_piece.1 hlast)] at hline
        rw [if_pos hlast, hline]
        exact ⟨_, rfl, hsteady, by rw [hconsume, hrest]⟩
      · rw [if_neg fun hmem => hlast (getLast?_piece.2 hmem)] at hline
        rw [if_neg hlast, hline]
        obtain ⟨u, hdiscard, hu⟩ := ih _ (size_consume_piece_lt hfill hpiece) hsteady rfl
        rw [hconsume] at hu
        refine ⟨u, hdiscard, hu.steady, ?_⟩
        rw [hu.rest, hconsume, List.drop_drop, List.length_append, hrest]

end Feed

/-! ### What a stream is read as -/

/-- A piece without the newline at its end. -/
def content (piece : Bytes) : Bytes :=
  if piece.getLast? = some newline then piece.dropLast else piece

/-- What a piece of a stream is read as: a line, unless it has more bytes than the limit besides its
newline. -/
def Input.ofPiece (limit : Nat) (piece : Bytes) : Input :=
  if (content piece).length ≤ limit then .line piece else .malformed

/-- What a stream is read as by `n` calls: its pieces in order, and then the end. -/
def Input.answers (limit : Nat) (stream : Bytes) (n : Nat) : List Input :=
  (List.range n).map fun i =>
    match (Bytes.lines stream)[i]? with
    | some piece => .ofPiece limit piece
    | none => .endOfInput

theorem Input.answers_nil (limit n : Nat) :
    answers limit [] (n + 1) = .endOfInput :: answers limit [] n := by
  have hlines : Bytes.lines [] = [] := by simp [Bytes.lines, Bytes.cutAfter]
  rw [answers, answers, List.range_succ_eq_map, List.map_cons, List.map_map, hlines]
  rfl

theorem Input.answers_of_ne_nil {limit n : Nat} {s : Bytes} (h : s ≠ []) :
    answers limit s (n + 1) = .ofPiece limit (throughNewline s) ::
      answers limit (s.drop (throughNewline s).length) n := by
  simp [answers, lines_of_ne_nil h, List.range_succ_eq_map]

/-! ### One call, and many -/

theorem content_of_newline {piece : Bytes} (h : piece.getLast? = some newline) :
    (content piece).length + 1 = piece.length := by
  have hne : piece ≠ [] := by
    rintro rfl
    simp at h
  have hpos := List.length_pos_iff.2 hne
  rw [content, if_pos h, List.length_dropLast]
  omega

theorem content_of_no_newline {piece : Bytes} (h : piece.getLast? ≠ some newline) :
    content piece = piece := by
  rw [content, if_neg h]

/-- The line that is read within the limit is a whole piece, unless the limit cuts the piece off
before its newline. -/
theorem throughNewline_cut (s : Bytes) (limit : Nat) :
    let line := throughNewline (s.take (limit + 1))
    if line.getLast? ≠ some newline ∧ line.length = limit + 1 then
      Input.ofPiece limit (throughNewline s) = .malformed ∧
        throughNewline s = line ++ throughNewline (s.drop line.length)
    else Input.ofPiece limit (throughNewline s) = .line line ∧ throughNewline s = line := by
  intro line
  have hsplit := List.take_append_drop (limit + 1) s
  have hlength : (s.take (limit + 1)).length ≤ limit + 1 := by
    rw [List.length_take]
    omega
  by_cases hmem : newline ∈ s.take (limit + 1)
  · -- the newline is within the limit
    have hlast : line.getLast? = some newline := getLast?_throughNewline.2 hmem
    have hpiece : throughNewline s = line := by
      rw [← hsplit, throughNewline_append, if_pos hmem]
    rw [if_neg fun h => h.1 hlast, hpiece]
    have hline : line.length ≤ limit + 1 := Nat.le_trans (length_throughNewline_le _) hlength
    have hcontent := content_of_newline hlast
    exact ⟨by rw [Input.ofPiece, if_pos (by omega)], rfl⟩
  have hline : line = s.take (limit + 1) := throughNewline_of_not_mem hmem
  have hlast : line.getLast? ≠ some newline := fun h => hmem (getLast?_throughNewline.1 h)
  have hpiece : throughNewline s = line ++ throughNewline (s.drop (limit + 1)) := by
    rw [← hsplit, throughNewline_append, if_neg hmem, hsplit, hline]
  by_cases hfull : line.length = limit + 1
  · -- the limit cuts the piece off, before its newline if it has one
    rw [if_pos ⟨hlast, hfull⟩, hfull]
    refine ⟨?_, hpiece⟩
    have hlong : limit < (content (throughNewline s)).length := by
      by_cases hend : (throughNewline s).getLast? = some newline
      · have hcontent := content_of_newline hend
        have hrest : throughNewline (s.drop (limit + 1)) ≠ [] := by
          intro hnil
          rw [hpiece, hnil, List.append_nil] at hend
          exact hlast hend
        have hpos := List.length_pos_iff.2 hrest
        rw [hpiece, List.length_append] at hcontent
        rw [hpiece]
        omega
      · rw [content_of_no_newline hend, hpiece, List.length_append]
        omega
    rw [Input.ofPiece, if_neg (by omega)]
  · -- the stream ends within the limit
    have hshort : line.length = (s.take (limit + 1)).length := congrArg List.length hline
    rw [List.length_take] at hshort hlength
    have hend : s.drop (limit + 1) = [] := List.drop_eq_nil_of_le (by omega)
    rw [hend, throughNewline, List.append_nil] at hpiece
    rw [if_neg fun h => hfull h.2, hpiece]
    refine ⟨?_, rfl⟩
    rw [Input.ofPiece, content_of_no_newline hlast, if_pos (by omega)]

namespace Feed

variable {f : Feed}

/-- **One call for a line** gives what the first piece of what is to come is read as, and leaves
what comes after that piece. -/
theorem Steady.nextLine (h : f.Steady) {limit : Nat} (hlimit : limit + 1 < twoTo 64) :
    ∃ g, f.Leaves (throughNewline f.rest) g ∧
      f.nextLine limit =
        (.ok (if f.rest = [] then .endOfInput else .ofPiece limit (throughNewline f.rest)), g) := by
  obtain ⟨g, hread, hg⟩ := h.readUntil (limit + 1) []
  rw [List.nil_append] at hread
  unfold Feed.nextLine
  rw [if_neg (by omega), hread]
  simp only
  have hcut := throughNewline_cut f.rest limit
  by_cases hrest : f.rest = []
  · have hnil : throughNewline (f.rest.take (limit + 1)) = [] := by simp [hrest, throughNewline]
    rw [hnil] at hg
    rw [if_pos hnil, if_pos hrest, hrest, throughNewline]
    exact ⟨g, hg, rfl⟩
  · have hne : throughNewline (f.rest.take (limit + 1)) ≠ [] := by
      rw [Ne, throughNewline_eq_nil, List.take_eq_nil_iff]
      simpa using hrest
    rw [if_neg hne, if_neg hrest]
    split
    · next hlong =>
        -- the rest of the line is dropped, and with it the whole first piece is gone
        rw [if_pos hlong] at hcut
        obtain ⟨u, hdiscard, hu⟩ := hg.steady.discardLine
        rw [hdiscard, hcut.1]
        refine ⟨u, ⟨hu.steady, ?_⟩, rfl⟩
        rw [hu.rest, hg.rest, List.drop_drop, hcut.2, List.length_append]
    · next hshort =>
        rw [if_neg hshort] at hcut
        rw [hcut.1, hcut.2]
        exact ⟨g, hg, rfl⟩

/-- What calls for a line give, one after another. -/
def readLines (limit : Nat) : Nat → Feed → List (Except InputError Input)
  | 0, _ => []
  | n + 1, f =>
    let (result, f) := f.nextLine limit
    result :: readLines limit n f

theorem Steady.readLines (h : f.Steady) {limit : Nat} (hlimit : limit + 1 < twoTo 64) (n : Nat) :
    f.readLines limit n = (Input.answers limit f.rest n).map .ok := by
  induction n generalizing f with
  | zero => rfl
  | succ n ih =>
      obtain ⟨g, hg, hnext⟩ := h.nextLine hlimit
      rw [Feed.readLines, hnext]
      simp only
      rw [ih hg.steady, hg.rest]
      by_cases hrest : f.rest = []
      · rw [if_pos hrest, hrest, List.drop_nil, Input.answers_nil, List.map_cons]
      · rw [if_neg hrest, Input.answers_of_ne_nil hrest, List.map_cons]

/-- A stream that arrives in chunks. -/
def arriving (capacity : Nat) (chunks : List Bytes) : Feed :=
  { source := { chunks := chunks.map .data }, capacity := capacity }

/-- **Every way of arriving gives the same lines.**  However a stream is cut into chunks and
whatever the buffer holds, calls for a line give the pieces of the stream, each as a line with its
newline or as one that is too long, and then the end. -/
theorem readLines_arriving {capacity limit : Nat} {chunks : List Bytes}
    (hcapacity : 1 ≤ capacity) (hchunks : ∀ chunk ∈ chunks, chunk ≠ [])
    (hlimit : limit + 1 < twoTo 64) (n : Nat) :
    (arriving capacity chunks).readLines limit n =
      (Input.answers limit chunks.flatten n).map .ok := by
  have hsteady : (arriving capacity chunks).Steady := by
    refine ⟨hcapacity, fun chunk hchunk => ?_⟩
    obtain ⟨bytes, hbytes, rfl⟩ := List.mem_map.1 hchunk
    exact ⟨bytes, hchunks bytes hbytes, rfl⟩
  have hrest : (arriving capacity chunks).rest = chunks.flatten := by
    simp [arriving, rest, List.flatMap_def, Function.comp_def, Chunk.bytes]
  rw [hsteady.readLines hlimit, hrest]

/-- A line that is too long, cut inside, and a last line without a newline. -/
theorem readLines_arriving_cut :
    (arriving 2 [utf8 "ab", utf8 "cde", utf8 "f\no", utf8 "k"]).readLines 4 3 =
      [.ok .malformed, .ok (.line (utf8 "ok")), .ok .endOfInput] := by
  rw [readLines_arriving (by decide) (by decide) (by decide)]
  rfl

end Feed

end JobShell
