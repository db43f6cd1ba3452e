/-
**Which interruptions can be seen.**

A read that is interrupted gives nothing and loses nothing, so one would have it tried again and
never hear of it.  The loop that reads a line does that; the loop that drops the rest of a line that
is too long does not.  So an interruption is not seen as long as no more bytes have been read of the
line than a line may have, and it is seen after that: the call fails, and what is left of the line
is read as if a line began there.

The proofs forget the buffer and the chunks.  What reads will meet is a list of single arrivals: a
byte, a read that gives nothing, a read that fails.  A call for a line scans that list from the
left, and all it has to remember are the bytes of the line so far.

Main definitions:

* `JobShell.Incoming`, `JobShell.Feed.incoming` — what the reads of a feed will meet;
* `JobShell.Incoming.next` — one call for a line, as a scan;
* `JobShell.Incoming.calm` — the same without interruptions;
* `JobShell.Incoming.Timely` — no interruption comes too late.

Main results:

* `JobShell.Feed.nextLine_next` — one call for a line depends on what the reads meet, and on nothing
  else;
* `JobShell.Incoming.next_calm`, `JobShell.Incoming.next_late` — timely interruptions are not seen,
  and others are;
* `JobShell.Feed.readLines_interrupted` — **interruptions are not seen exactly if they come in
  time.**
-/

import JobShell.Proofs.Input.Unbuffered

set_option autoImplicit false

namespace JobShell

/-! ### What reads meet -/

/-- What a read meets, one byte at a time. -/
inductive Incoming where
  | byte (c : UInt8)
  /-- The read gives nothing. -/
  | nothing
  | failure (cause : ReadFailure)
  deriving DecidableEq, Repr

/-- What the reads of a chunk meet. -/
def Chunk.incoming : Chunk → List Incoming
  | .data [] => [.nothing]
  | .data (c :: bytes) => (c :: bytes).map .byte
  | .failure cause => [.failure cause]

/-- What the reads of a feed will meet; after that they give nothing. -/
def Feed.incoming (f : Feed) : List Incoming :=
  f.buffer.map .byte ++ f.source.chunks.flatMap Chunk.incoming

namespace Incoming

/-- What a line is read as that the bytes end without a newline. -/
def closed (limit : Nat) (line : Bytes) : Input :=
  if line = [] then .endOfInput else .ofPiece limit line

/-- A call for a line, when the bytes `line` have been read of it.  An interruption is not seen as
long as no more bytes have been read than a line may have. -/
def next (limit : Nat) (line : Bytes) : List Incoming → Except ReadFailure Input × List Incoming
  | [] => (.ok (closed limit line), [])
  | .nothing :: items => (.ok (closed limit line), items)
  | .failure cause :: items =>
    if cause = .interrupted ∧ line.length ≤ limit then next limit line items
    else (.error cause, items)
  | .byte c :: items =>
    if c = newline then (.ok (.ofPiece limit (line ++ [c])), items)
    else next limit (line ++ [c]) items

/-- What calls for a line give, one after another. -/
def answers (limit : Nat) : Nat → List Incoming → List (Except ReadFailure Input)
  | 0, _ => []
  | n + 1, items => (next limit [] items).1 :: answers limit n (next limit [] items).2

/-! ### Scanning bytes -/

section Scanning

variable {limit : Nat} {line s : Bytes}

theorem next_bytes (h : newline ∉ s) (items : List Incoming) :
    next limit line (s.map .byte ++ items) = next limit (line ++ s) items := by
  induction s generalizing line with
  | nil => rw [List.map_nil, List.nil_append, List.append_nil]
  | cons c s ih =>
      obtain ⟨hc, hs⟩ := not_or.1 (mt List.mem_cons.2 h)
      rw [List.map_cons, List.cons_append, next, if_neg (Ne.symm hc), ih hs, List.append_assoc]
      rfl

theorem next_bytes_newline (h : newline ∈ s) (items : List Incoming) :
    next limit line (s.map .byte ++ items) =
      (.ok (.ofPiece limit (line ++ throughNewline s)),
        (s.drop (throughNewline s).length).map .byte ++ items) := by
  induction s generalizing line with
  | nil => cases h
  | cons c s ih =>
      rw [List.map_cons, List.cons_append, next]
      by_cases hc : c = newline
      · rw [if_pos hc, throughNewline, if_pos hc]
        rfl
      · have hs : newline ∈ s := (List.mem_cons.1 h).resolve_left (Ne.symm hc)
        rw [if_neg hc, ih hs, throughNewline, if_neg hc, List.append_assoc]
        rfl

end Scanning

end Incoming

/-! ### The reader scans what its reads meet -/

theorem Input.ofPiece_short {limit : Nat} {line : Bytes} (h : newline ∉ line)
    (hlength : line.length ≤ limit) : ofPiece limit line = .line line := by
  have hlast : line.getLast? ≠ some newline := fun hlast => h (List.mem_of_getLast? hlast)
  rw [ofPiece, content_of_no_newline hlast, if_pos hlength]

theorem Input.ofPiece_long {limit : Nat} {line : Bytes} (h : newline ∉ line)
    (hlength : limit < line.length) : ofPiece limit line = .malformed := by
  have hlast : line.getLast? ≠ some newline := fun hlast => h (List.mem_of_getLast? hlast)
  rw [ofPiece, content_of_no_newline hlast, if_neg (by omega)]

namespace Feed

open Incoming (next closed)

variable {f g : Feed} {limit : Nat}

/-- A read that fails is met first. -/
theorem fill_error {cause : ReadFailure} (h : f.fill = (.error cause, g)) :
    f.incoming = .failure cause :: g.incoming ∧ g.capacity = f.capacity := by
  unfold fill at h
  split at h
  · next hbuffer =>
    unfold Source.read at h
    rcases hchunks : f.source.chunks with _ | ⟨bytes | cause', chunks⟩
    · simp [hchunks] at h
    · simp [hchunks] at h
    · simp only [hchunks, Prod.mk.injEq, Except.error.injEq] at h
      obtain ⟨rfl, rfl⟩ := h
      exact ⟨by simp [incoming, hbuffer, hchunks, Chunk.incoming], rfl⟩
  · cases h

/-- A read that does not fail changes nothing of what is to come, unless it gives nothing. -/
theorem fill_ok (hcapacity : 1 ≤ f.capacity) (h : f.fill = (.ok (), g)) :
    g.capacity = f.capacity ∧
      if g.buffer = [] then
        f.incoming = .nothing :: g.incoming ∨ f.incoming = [] ∧ g.incoming = []
      else g.incoming = f.incoming := by
  unfold fill at h
  split at h
  · next hbuffer =>
    unfold Source.read at h
    rcases hchunks : f.source.chunks with _ | ⟨bytes | cause, chunks⟩
    · simp only [hchunks, Prod.mk.injEq, true_and] at h
      subst h
      simp [incoming, hbuffer, hchunks]
    · simp only [hchunks, Prod.mk.injEq, true_and] at h
      subst h
      refine ⟨rfl, ?_⟩
      cases bytes with
      | nil => simp [incoming, hbuffer, hchunks, Chunk.incoming]
      | cons c bytes =>
          have hgot : (c :: bytes).take f.capacity ≠ [] := by
            simp only [ne_eq, List.take_eq_nil_iff, reduceCtorEq, or_false]
            omega
          have hsplit : (c :: bytes).map Incoming.byte =
              ((c :: bytes).take f.capacity).map .byte ++
                ((c :: bytes).drop f.capacity).map .byte := by
            rw [← List.map_append, List.take_append_drop]
          rw [if_neg hgot]
          simp only [incoming, hbuffer, hchunks, List.map_nil, List.nil_append, List.flatMap_cons,
            Chunk.incoming, hsplit, List.append_assoc]
          -- what the read leaves of the chunk is again a chunk, if it is anything
          cases hleft : (c :: bytes).drop f.capacity with
          | nil => simp
          | cons d rest => simp [Chunk.incoming]
    · simp [hchunks] at h
  · next hbuffer =>
    obtain rfl : f = g := congrArg Prod.snd h
    exact ⟨rfl, by rw [if_neg hbuffer]⟩

/-- Using up a piece without a newline is scanning it. -/
theorem next_piece {n : Nat} (hnewline : newline ∉ g.buffer.take n) (line : Bytes) :
    next limit line g.incoming =
      next limit (line ++ g.piece n) (g.consume (g.piece n).length).incoming := by
  have hpiece := piece_of_not_mem hnewline
  have hsplit : g.buffer = g.piece n ++ g.buffer.drop (g.piece n).length := by
    rw [hpiece]
    exact (List.prefix_iff_eq_append.1 (List.take_prefix n g.buffer)).symm
  have hincoming : g.incoming =
      (g.piece n).map .byte ++ (g.consume (g.piece n).length).incoming := by
    rw [incoming, hsplit, List.map_append, List.append_assoc]
    rfl
  rw [hincoming, Incoming.next_bytes (hpiece ▸ hnewline)]

/-- Using up a piece with a newline ends the line. -/
theorem next_piece_newline {n : Nat} (hnewline : newline ∈ g.buffer.take n) (line : Bytes) :
    next limit line g.incoming =
      (.ok (.ofPiece limit (line ++ g.piece n)), (g.consume (g.piece n).length).incoming) := by
  have hpiece := throughNewline_append (g.buffer.take n) (g.buffer.drop n)
  rw [List.take_append_drop, if_pos hnewline] at hpiece
  rw [incoming, Incoming.next_bytes_newline (List.mem_of_mem_take hnewline), hpiece]
  rfl

/-- A line that ends without a newline, and is not too long. -/
theorem closed_short {line : Bytes} (h : newline ∉ line) (hlength : line.length ≤ limit) :
    closed limit line = if line = [] then .endOfInput else .line line := by
  rw [closed, Input.ofPiece_short h hlength]

/-- What comes of reading a line, of which the bytes `line` have been read: all that a line may have
and one byte more, so that the rest is still to be scanned, or what the scan gives. -/
def ReadsOn (limit : Nat) (line : Bytes) (f : Feed) : Except ReadFailure Bytes × Feed → Prop
  | (.error cause, g) => next limit line f.incoming = (.error cause, g.incoming)
  | (.ok read, g) =>
    if read.getLast? ≠ some newline ∧ read.length = limit + 1 then
      newline ∉ read ∧ next limit line f.incoming = next limit read g.incoming
    else
      next limit line f.incoming =
        (.ok (if read = [] then .endOfInput else .line read), g.incoming)

theorem ReadsOn.of_next {line line' : Bytes} {r : Except ReadFailure Bytes × Feed}
    (h : ReadsOn limit line' g r) (heq : next limit line f.incoming = next limit line' g.incoming) :
    ReadsOn limit line f r := by
  unfold ReadsOn at h ⊢
  rwa [heq]

/-- **Reading a line scans for it.** -/
theorem readUntil_next {room : Nat} {line : Bytes} (hcapacity : 1 ≤ f.capacity)
    (hnewline : newline ∉ line) (hroom : line.length + room = limit + 1) :
    (f.readUntil room line).2.capacity = f.capacity ∧
      ReadsOn limit line f (f.readUntil room line) := by
  have hlast : line.getLast? ≠ some newline := fun h => hnewline (List.mem_of_getLast? h)
  fun_induction Feed.readUntil room line f with
  | case1 line f =>
      refine ⟨rfl, ?_⟩
      rw [ReadsOn, if_pos ⟨hlast, by omega⟩]
      exact ⟨hnewline, rfl⟩
  | case2 room line f hzero g hfill ih =>
      -- the interruption is not seen, since there is room for a byte more
      obtain ⟨hfirst, hsame⟩ := fill_error hfill
      obtain ⟨hsame', hreads⟩ := ih (by omega) hnewline hroom hlast
      refine ⟨hsame'.trans hsame, hreads.of_next ?_⟩
      rw [hfirst, next, if_pos ⟨rfl, by omega⟩]
  | case3 room line f hzero cause g hcause hfill =>
      obtain ⟨hfirst, hsame⟩ := fill_error hfill
      refine ⟨hsame, ?_⟩
      rw [ReadsOn, hfirst, next, if_neg fun h => hcause h.1]
  | case4 room line f hzero g hfill hpiece =>
      obtain ⟨hsame, hgives⟩ := fill_ok hcapacity hfill
      rw [if_pos ((piece_eq_nil hzero).1 hpiece)] at hgives
      refine ⟨hsame, ?_⟩
      have hshort : line.length ≤ limit := by omega
      rw [ReadsOn, if_neg fun h => by omega, ← closed_short hnewline hshort]
      rcases hgives with hfirst | ⟨hend, hend'⟩
      · rw [hfirst, next]
      · rw [hend, hend', next]
  | case5 room line f hzero g hfill hpiece hend =>
      obtain ⟨hsame, hgives⟩ := fill_ok hcapacity hfill
      rw [if_neg (mt (piece_eq_nil hzero).2 hpiece)] at hgives
      have hline : (line ++ g.piece room).getLast? = some newline := by
        rw [List.getLast?_append, hend]
        rfl
      have hlength : (g.piece room).length ≤ room :=
        Nat.le_trans (length_throughNewline_le _) (by rw [List.length_take]; omega)
      have hcontent := content_of_newline hline
      refine ⟨hsame, ?_⟩
      rw [ReadsOn, if_neg fun h => h.1 hline, if_neg (by simp [hpiece]), ← hgives,
        next_piece_newline (getLast?_piece.1 hend), Input.ofPiece, if_pos]
      rw [List.length_append] at hcontent
      omega
  | case6 room line f hzero g hfill hpiece hend ih =>
      obtain ⟨hsame, hgives⟩ := fill_ok hcapacity hfill
      rw [if_neg (mt (piece_eq_nil hzero).2 hpiece)] at hgives
      have hmem : newline ∉ g.buffer.take room := mt getLast?_piece.2 hend
      have hlength : (g.piece room).length ≤ room := by
        rw [piece_of_not_mem hmem, List.length_take]
        omega
      have hlonger : newline ∉ line ++ g.piece room := by
        rw [List.mem_append, piece_of_not_mem hmem]
        exact not_or.2 ⟨hnewline, hmem⟩
      obtain ⟨hsame', hreads⟩ := ih (hsame ▸ hcapacity) hlonger
        (by rw [List.length_append]; omega) (fun h => hlonger (List.mem_of_getLast? h))
      refine ⟨hsame'.trans hsame, hreads.of_next ?_⟩
      rw [← hgives, next_piece hmem]

/-- **Dropping the rest of a line scans for its end.** -/
theorem discardLine_next {line : Bytes} (hcapacity : 1 ≤ f.capacity) (hnewline : newline ∉ line)
    (hlong : limit < line.length) :
    f.discardLine.2.capacity = f.capacity ∧
      next limit line f.incoming =
        (f.discardLine.1.map fun _ => .malformed, f.discardLine.2.incoming) := by
  -- `line` is what has been dropped so far: it is too long already, and grows by each piece
  fun_induction Feed.discardLine f generalizing line with
  | case1 f cause g hfill =>
      obtain ⟨hfirst, hsame⟩ := fill_error hfill
      refine ⟨hsame, ?_⟩
      rw [hfirst, next, if_neg fun h => by omega]
      rfl
  | case2 f g hfill hpiece =>
      obtain ⟨hsame, hgives⟩ := fill_ok hcapacity hfill
      rw [if_pos (piece_buffer_eq_nil.1 hpiece)] at hgives
      have hclosed : closed limit line = .malformed := by
        rw [closed, if_neg, Input.ofPiece_long hnewline hlong]
        rintro rfl
        cases hlong
      refine ⟨hsame, ?_⟩
      rcases hgives with hfirst | ⟨hend, hend'⟩
      · rw [hfirst, next, hclosed]
        rfl
      · rw [hend, hend', next, hclosed]
        rfl
  | case3 f g hfill hpiece hend =>
      obtain ⟨hsame, hgives⟩ := fill_ok hcapacity hfill
      rw [if_neg (mt piece_buffer_eq_nil.2 hpiece)] at hgives
      have hline : (line ++ g.piece g.buffer.length).getLast? = some newline := by
        rw [List.getLast?_append, hend]
        rfl
      have hpos := List.length_pos_iff.2 hpiece
      have hcontent := content_of_newline hline
      rw [List.length_append] at hcontent
      refine ⟨hsame, ?_⟩
      rw [← hgives, next_piece_newline (getLast?_piece.1 hend), Input.ofPiece,
        if_neg (by omega)]
      rfl
  | case4 f g hfill hpiece hend ih =>
      obtain ⟨hsame, hgives⟩ := fill_ok hcapacity hfill
      rw [if_neg (mt piece_buffer_eq_nil.2 hpiece)] at hgives
      have hmem : newline ∉ g.buffer.take g.buffer.length := mt getLast?_piece.2 hend
      have hlonger : newline ∉ line ++ g.piece g.buffer.length := by
        rw [List.mem_append, piece_of_not_mem hmem]
        exact not_or.2 ⟨hnewline, hmem⟩
      obtain ⟨hsame', hscan⟩ := ih (hsame ▸ hcapacity) hlonger
        (by rw [List.length_append]; omega)
      refine ⟨hsame'.trans hsame, ?_⟩
      rw [← hgives, next_piece hmem, hscan]

/-- **One call for a line scans what its reads meet**, and depends on nothing else. -/
theorem nextLine_next (hcapacity : 1 ≤ f.capacity) (hlimit : limit + 1 < twoTo 64) :
    (f.nextLine limit).2.capacity = f.capacity ∧
      (f.nextLine limit).1 = (next limit [] f.incoming).1.mapError .failed ∧
      (f.nextLine limit).2.incoming = (next limit [] f.incoming).2 := by
  obtain ⟨hsame, hreads⟩ := readUntil_next hcapacity List.not_mem_nil (Nat.zero_add (limit + 1))
  unfold nextLine
  rw [if_neg (by omega)]
  rcases hrun : f.readUntil (limit + 1) [] with ⟨cause | read, g⟩
  · rw [hrun] at hsame hreads
    have hscan : next limit [] f.incoming = (.error cause, g.incoming) := hreads
    rw [hscan]
    exact ⟨hsame, rfl, rfl⟩
  · rw [hrun, ReadsOn] at hreads
    rw [hrun] at hsame
    by_cases hfull : read.getLast? ≠ some newline ∧ read.length = limit + 1
    · rw [if_pos hfull] at hreads
      -- the limit has cut the line off, and what is left of it is dropped
      obtain ⟨hnewline, hscan⟩ := hreads
      have hne : read ≠ [] := List.ne_nil_of_length_eq_add_one hfull.2
      have hlong : limit < read.length := by omega
      obtain ⟨hsame', hdiscard⟩ := discardLine_next (hsame ▸ hcapacity) hnewline hlong
      rw [hscan, hdiscard]
      simp only [if_neg hne, if_pos hfull]
      rcases hdrop : g.discardLine with ⟨cause | _, u⟩
      · rw [hdrop] at hsame'
        exact ⟨hsame'.trans hsame, rfl, rfl⟩
      · rw [hdrop] at hsame'
        exact ⟨hsame'.trans hsame, rfl, rfl⟩
    · rw [if_neg hfull] at hreads
      rw [hreads]
      simp only [if_neg hfull]
      split
      · exact ⟨hsame, rfl, rfl⟩
      · exact ⟨hsame, rfl, rfl⟩

/-- Calls for a line, one after another, scan what their reads meet. -/
theorem readLines_answers (hcapacity : 1 ≤ f.capacity) (hlimit : limit + 1 < twoTo 64) (n : Nat) :
    f.readLines limit n =
      (Incoming.answers limit n f.incoming).map (Except.mapError .failed) := by
  induction n generalizing f with
  | zero => rfl
  | succ n ih =>
      obtain ⟨hsame, hgives, hleft⟩ := nextLine_next hcapacity hlimit
      change (f.nextLine limit).1 :: (f.nextLine limit).2.readLines limit n = _
      rw [Incoming.answers, List.map_cons, ← hgives, ← hleft, ih (hsame ▸ hcapacity)]

end Feed

/-! ### Interruptions -/

namespace Incoming

/-- What is met apart from interruptions. -/
def calm (items : List Incoming) : List Incoming := items.filter (· ≠ .failure .interrupted)

/-- How many bytes have been read of a line after one thing more has been met. -/
def count (k : Nat) : Incoming → Nat
  | .byte c => if c = newline then 0 else k + 1
  | .failure .interrupted => k
  | .nothing | .failure _ => 0

/-- No interruption comes when more bytes have been read of a line than it may have, if `k` have been
read in the beginning. -/
def Timely (limit k : Nat) (items : List Incoming) : Prop :=
  ∀ before after, items = before ++ .failure .interrupted :: after → before.foldl count k ≤ limit

section Interruptions

variable {limit k : Nat} {line : Bytes} {items : List Incoming}

theorem timely_cons {item : Incoming} :
    Timely limit k (item :: items) ↔
      (item = .failure .interrupted → k ≤ limit) ∧ Timely limit (count k item) items := by
  constructor
  · intro h
    refine ⟨?_, fun before after heq => h (item :: before) after (by rw [heq]; rfl)⟩
    rintro rfl
    exact h [] items rfl
  · rintro ⟨hfirst, hrest⟩ before after heq
    cases before with
    | nil => exact hfirst (List.cons.inj heq).1
    | cons item' before =>
        obtain ⟨rfl, rfl⟩ := List.cons.inj heq
        exact hrest before after rfl

theorem timely_nil : Timely limit k [] :=
  fun before after heq => absurd heq (by simp)

instance decidableTimely (limit : Nat) :
    ∀ (k : Nat) (items : List Incoming), Decidable (Timely limit k items)
  | _, [] => isTrue timely_nil
  | k, item :: items =>
    have := decidableTimely limit (count k item) items
    decidable_of_iff _ timely_cons.symm

/-- A call gives what it would give without interruptions, if they come in time. -/
theorem next_calm (line : Bytes) (h : Timely limit line.length items) :
    next limit line (calm items) = ((next limit line items).1, calm (next limit line items).2) ∧
      Timely limit 0 (next limit line items).2 := by
  induction items generalizing line with
  | nil => exact ⟨rfl, timely_nil⟩
  | cons item items ih =>
      obtain ⟨hfirst, hrest⟩ := timely_cons.1 h
      -- an interruption in time is passed over, as if it had not been there
      by_cases hitem : item = .failure .interrupted
      · subst hitem
        rw [next, if_pos ⟨rfl, hfirst rfl⟩]
        exact ih _ hrest
      have hcalm : calm (item :: items) = item :: calm items :=
        List.filter_cons_of_pos (by simpa using hitem)
      rw [hcalm]
      cases item with
      | byte c =>
          rw [next, next]
          by_cases hc : c = newline
          · rw [if_pos hc, if_pos hc]
            rw [count, if_pos hc] at hrest
            exact ⟨rfl, hrest⟩
          · rw [if_neg hc, if_neg hc]
            rw [count, if_neg hc] at hrest
            exact ih _ (by rwa [List.length_append])
      | nothing => exact ⟨rfl, hrest⟩
      | failure cause =>
          have hcause : cause ≠ .interrupted := fun heq => hitem (by rw [heq])
          rw [next, next, if_neg fun h => hcause h.1, if_neg fun h => hcause h.1]
          cases cause with
          | interrupted => exact absurd rfl hcause
          | _ => exact ⟨rfl, hrest⟩

theorem answers_calm (h : Timely limit 0 items) (n : Nat) :
    answers limit n (calm items) = answers limit n items := by
  induction n generalizing items with
  | zero => rfl
  | succ n ih =>
      obtain ⟨hnext, htimely⟩ := next_calm [] h
      rw [answers, answers, hnext, ih htimely]

/-- An interruption that comes too late is seen by the call, or is still to come. -/
theorem next_late (line : Bytes) (h : ¬ Timely limit line.length items) :
    (next limit line items).1 = .error .interrupted ∨
      (next limit line items).2.length < items.length ∧
        ¬ Timely limit 0 (next limit line items).2 := by
  induction items generalizing line with
  | nil => exact absurd timely_nil h
  | cons item items ih =>
      rw [timely_cons, not_and] at h
      -- what follows from the rest of the scan
      have hgo : ∀ line' : Bytes, ¬ Timely limit line'.length items →
          (next limit line' items).1 = .error .interrupted ∨
            (next limit line' items).2.length < (item :: items).length ∧
              ¬ Timely limit 0 (next limit line' items).2 :=
        fun line' hline => (ih line' hline).imp_right fun h => ⟨Nat.lt_succ_of_lt h.1, h.2⟩
      cases item with
      | byte c =>
          have hrest := h (fun heq => by cases heq)
          rw [next]
          by_cases hc : c = newline
          · rw [count, if_pos hc] at hrest
            rw [if_pos hc]
            exact .inr ⟨Nat.lt_succ_self _, hrest⟩
          · rw [count, if_neg hc] at hrest
            rw [if_neg hc]
            exact hgo _ (by rwa [List.length_append])
      | nothing => exact .inr ⟨Nat.lt_succ_self _, h (fun heq => by cases heq)⟩
      | failure cause =>
          rw [next]
          by_cases hskip : cause = .interrupted ∧ line.length ≤ limit
          · obtain ⟨rfl, htimely⟩ := hskip
            rw [if_pos ⟨rfl, htimely⟩]
            exact hgo _ (h fun _ => htimely)
          · rw [if_neg hskip]
            cases cause with
            | interrupted => exact .inl rfl
            | _ => exact .inr ⟨Nat.lt_succ_self _, h (fun heq => by cases heq)⟩

theorem exists_answers_interrupted (h : ¬ Timely limit 0 items) :
    ∃ n, .error .interrupted ∈ answers limit n items := by
  -- each call leaves less that is to come
  induction hlength : items.length using Nat.strongRecOn generalizing items with
  | ind length ih =>
      rcases next_late [] h with hseen | ⟨hless, hlate⟩
      · exact ⟨1, by rw [answers, hseen]; exact List.mem_cons_self⟩
      · obtain ⟨n, hmem⟩ := ih _ (hlength ▸ hless) hlate rfl
        exact ⟨n + 1, List.mem_cons_of_mem _ hmem⟩

/-- A call that meets no interruption does not see one, and what it leaves was there before. -/
theorem next_uninterrupted (limit : Nat) (line : Bytes) (h : .failure .interrupted ∉ items) :
    (next limit line items).1 ≠ .error .interrupted ∧ (next limit line items).2 ⊆ items := by
  induction items generalizing line with
  | nil => exact ⟨by simp [next], List.Subset.refl _⟩
  | cons item items ih =>
      obtain ⟨hitem, hitems⟩ := not_or.1 (mt List.mem_cons.2 h)
      cases item with
      | byte c =>
          rw [next]
          split
          · exact ⟨by simp, List.subset_cons_self _ _⟩
          · exact ⟨(ih _ hitems).1, List.subset_cons_of_subset _ (ih _ hitems).2⟩
      | nothing => exact ⟨by simp [next], List.subset_cons_self _ _⟩
      | failure cause =>
          have hcause : cause ≠ .interrupted := fun heq => hitem (by rw [heq])
          rw [next, if_neg fun h => hcause h.1]
          exact ⟨by simpa using hcause, List.subset_cons_self _ _⟩

theorem not_mem_answers (h : .failure .interrupted ∉ items) (n : Nat) :
    .error .interrupted ∉ answers limit n items := by
  induction n generalizing items with
  | zero => exact List.not_mem_nil
  | succ n ih =>
      obtain ⟨hnext, hleft⟩ := next_uninterrupted limit [] h
      exact fun hmem => (List.mem_cons.1 hmem).elim (fun heq => hnext heq.symm)
        (ih fun hmem' => h (hleft hmem'))

end Interruptions

end Incoming

namespace Feed

variable {f g : Feed} {limit : Nat}

theorem failed_mem_readLines {cause : ReadFailure} (hcapacity : 1 ≤ f.capacity)
    (hlimit : limit + 1 < twoTo 64) (n : Nat) :
    .error (.failed cause) ∈ f.readLines limit n ↔
      .error cause ∈ Incoming.answers limit n f.incoming := by
  rw [readLines_answers hcapacity hlimit, List.mem_map]
  constructor
  · rintro ⟨answer, hmem, heq⟩
    cases answer with
    | ok input => cases heq
    | error cause' =>
        have hfailed : (.error (.failed cause') : Except InputError Input) =
            .error (.failed cause) := heq
        cases hfailed
        exact hmem
  · exact fun hmem => ⟨_, hmem, rfl⟩

/-- **Interruptions are not seen exactly if they come in time.**  Let the reads of `g` meet what those
of `f` meet, and interruptions among it, anywhere and as many as there may be; the bytes may be cut
into chunks in another way, and the buffers may be of any size.

* Calls for a line give the same for both, for every number of calls, exactly if no interruption
  comes when more bytes have been read of a line than the limit.
* If one does, some call fails since it was interrupted. -/
theorem readLines_interrupted (hf : 1 ≤ f.capacity) (hg : 1 ≤ g.capacity)
    (hlimit : limit + 1 < twoTo 64) (hsame : f.incoming = Incoming.calm g.incoming) :
    ((∀ n, g.readLines limit n = f.readLines limit n) ↔ Incoming.Timely limit 0 g.incoming) ∧
    (¬ Incoming.Timely limit 0 g.incoming →
      ∃ n, .error (.failed .interrupted) ∈ g.readLines limit n) := by
  have hseen : ¬ Incoming.Timely limit 0 g.incoming →
      ∃ n, .error (.failed .interrupted) ∈ g.readLines limit n := by
    intro hlate
    obtain ⟨n, hmem⟩ := Incoming.exists_answers_interrupted hlate
    exact ⟨n, (failed_mem_readLines hg hlimit n).2 hmem⟩
  refine ⟨⟨fun heq => Classical.byContradiction fun hlate => ?_, fun htimely n => ?_⟩, hseen⟩
  · obtain ⟨n, hmem⟩ := hseen hlate
    have hcalm : .failure .interrupted ∉ Incoming.calm g.incoming := by simp [Incoming.calm]
    rw [heq, failed_mem_readLines hf hlimit, hsame] at hmem
    exact Incoming.not_mem_answers hcalm n hmem
  · rw [readLines_answers hg hlimit, readLines_answers hf hlimit, hsame,
      Incoming.answers_calm htimely]

/-- A line of two bytes, and one that is too long for a limit of two: read through a buffer of two
bytes, with interruptions before and within the first and within the second. -/
theorem readLines_interrupted_timely :
    let g : Feed := ⟨⟨[.failure .interrupted, .data (utf8 "a"), .failure .interrupted,
      .failure .interrupted, .data (utf8 "b\ncd"), .failure .interrupted, .data (utf8 "efg\n")], 0⟩,
      2, []⟩
    let f : Feed := ⟨⟨[.data (utf8 "ab\ncdefg\n")], 0⟩, 8192, []⟩
    f.incoming = Incoming.calm g.incoming ∧ ∀ n, g.readLines 2 n = f.readLines 2 n := by
  refine ⟨by decide, (readLines_interrupted ?_ ?_ ?_ ?_).1.2 ?_⟩ <;> decide

/-- An interruption while a line that is too long is being dropped: the call fails, and the rest of
the line comes back as a line. -/
theorem readLines_interrupted_late :
    ¬ ∀ (f g : Feed) (limit : Nat), 1 ≤ f.capacity → 1 ≤ g.capacity → limit + 1 < twoTo 64 →
      f.incoming = Incoming.calm g.incoming → ∀ n, g.readLines limit n = f.readLines limit n := by
  intro h
  let f : Feed := ⟨⟨[.data (utf8 "abc"), .data (utf8 "d\nx\n")], 0⟩, 8192, []⟩
  let g : Feed :=
    ⟨⟨[.data (utf8 "abc"), .failure .interrupted, .data (utf8 "d\nx\n")], 0⟩, 8192, []⟩
  have hf : f.readLines 1 3 = [.ok .malformed, .ok (.line (utf8 "x\n")), .ok .endOfInput] := by
    rw [readLines_answers (by decide) (by decide)]
    rfl
  have hg : g.readLines 1 3 = [.error (.failed .interrupted), .ok (.line (utf8 "d\n")),
      .ok (.line (utf8 "x\n"))] := by
    rw [readLines_answers (by decide) (by decide)]
    rfl
  have hsame := h f g 1 (by decide) (by decide) (by decide) (by decide) 3
  rw [hf, hg] at hsame
  cases hsame

end Feed

end JobShell
