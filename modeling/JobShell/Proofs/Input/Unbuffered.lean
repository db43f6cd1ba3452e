/-
**A buffer of one byte takes no byte too many.**

A reader that shares its input with other processes must leave alone what it does not hand out.
With a buffer of one byte it does: a read gives at most one byte, and that byte is used up before the
next read.  So the buffer is empty after every call, whether the line was short, too long, or cut off
by a failure, and what has been taken from the source is what has been read as lines.  A buffer that
holds more may keep something back, but never all that it holds: every read is followed by using up
a byte, unless it gave none.

Main definitions:

* `JobShell.Feed.stock` — what has been taken from the source, and what the source still has;
* `JobShell.Feed.Bare`, `JobShell.Feed.Sparing` — nothing in a buffer of one byte, and computations
  that lose nothing and leave nothing there;
* `JobShell.Feed.Slack`, `JobShell.Feed.Thrifty` — the same for a buffer that holds more: it has room
  for a byte.

Main results:

* `JobShell.Feed.readUntil_thrifty`, `JobShell.Feed.discardLine_thrifty` — the two loops;
* `JobShell.Feed.nextLine_thrifty`, `JobShell.Feed.nextLine_sparing` — one call for a line;
* `JobShell.Feed.nextLine_unbuffered` — **what a call takes is the first line, and nothing more.**
-/

import JobShell.Proofs.Input.Lines

set_option autoImplicit false

namespace JobShell

namespace Feed

/-! ### What is taken and what is left -/

/-- The bytes that the source still has. -/
def left (f : Feed) : Bytes := f.source.chunks.flatMap Chunk.bytes

/-- How many bytes have been taken from the source, and how many it still has. -/
def stock (f : Feed) : Nat := f.source.taken + f.left.length

/-- The buffer has room for one byte, and it is empty. -/
structure Bare (f : Feed) : Prop where
  capacity : f.capacity = 1
  buffer : f.buffer = []

/-- A computation from `f` to `g` has kept nothing back, and no byte has been lost. -/
structure Sparing (f g : Feed) : Prop where
  bare : g.Bare
  stock : g.stock = f.stock

/-- The buffer has room for a byte more. -/
def Slack (f : Feed) : Prop := f.buffer.length < f.capacity

/-- A computation from `f` to `g` has kept back less than the buffer holds, and no byte has been
lost. -/
structure Thrifty (f g : Feed) : Prop where
  capacity : g.capacity = f.capacity
  slack : g.Slack
  stock : g.stock = f.stock

variable {f g u : Feed}

theorem Thrifty.refl (h : f.Slack) : f.Thrifty f := ⟨rfl, h, rfl⟩

theorem Thrifty.trans (hg : f.Thrifty g) (hu : g.Thrifty u) : f.Thrifty u :=
  ⟨hu.capacity.trans hg.capacity, hu.slack, hu.stock.trans hg.stock⟩

/-- With an empty buffer all that is to come is with the source. -/
theorem Bare.rest (h : f.Bare) : f.rest = f.left := by
  rw [Feed.rest, h.buffer, List.nil_append, left]

/-- What a read gives is gone from what the source has. -/
theorem fill_stock (f : Feed) : f.fill.2.stock = f.stock := by
  unfold fill
  split
  · unfold Source.read
    rcases hchunks : f.source.chunks with _ | ⟨bytes | cause, chunks⟩
    · rfl
    · have hlength := congrArg List.length (List.take_append_drop f.capacity bytes)
      rw [List.length_append] at hlength
      by_cases hleft : bytes.drop f.capacity = []
      · rw [hleft, List.length_nil] at hlength
        simp only [stock, left, hchunks, hleft, if_true, List.flatMap_cons, Chunk.bytes,
          List.length_append]
        omega
      · simp only [stock, left, hchunks, hleft, if_false, List.flatMap_cons, Chunk.bytes,
          List.length_append]
        omega
    · simp [stock, left, hchunks, Chunk.bytes]
  · rfl

/-- A read fills the buffer at most; one that fails leaves it empty. -/
theorem fill_buffer (h : f.Slack) :
    f.fill.2.capacity = f.capacity ∧ f.fill.2.buffer.length ≤ f.capacity ∧
      ∀ cause, f.fill.1 = .error cause → f.fill.2.buffer = [] := by
  unfold fill
  split
  · next hbuffer =>
    unfold Source.read
    rcases f.source.chunks with _ | ⟨bytes | cause, chunks⟩
    · exact ⟨rfl, Nat.zero_le _, fun _ _ => rfl⟩
    · refine ⟨rfl, ?_, fun _ hcause => by cases hcause⟩
      exact List.length_take_le _ bytes
    · refine ⟨rfl, Nat.le_of_lt h, fun _ _ => hbuffer⟩
  · exact ⟨rfl, Nat.le_of_lt h, fun _ hcause => by cases hcause⟩

/-- A read that fails keeps nothing back. -/
theorem Slack.fill_error (h : f.Slack) {cause : ReadFailure} (hfill : f.fill = (.error cause, g)) :
    f.Thrifty g := by
  have hstock := f.fill_stock
  obtain ⟨hcapacity, -, hempty⟩ := fill_buffer h
  rw [hfill] at hstock hcapacity hempty
  have hpositive : 0 < f.capacity := Nat.zero_lt_of_lt h
  refine ⟨hcapacity, ?_, hstock⟩
  change g.buffer.length < g.capacity
  rw [hcapacity, hempty cause rfl]
  exact hpositive

/-- Where the buffer stays empty nothing is kept back. -/
theorem Slack.fill_empty (h : f.Slack) (hfill : f.fill = (.ok (), g)) (hempty : g.buffer = []) :
    f.Thrifty g := by
  have hstock := f.fill_stock
  obtain ⟨hcapacity, -⟩ := fill_buffer h
  rw [hfill] at hstock hcapacity
  have hpositive : 0 < f.capacity := Nat.zero_lt_of_lt h
  refine ⟨hcapacity, ?_, hstock⟩
  change g.buffer.length < g.capacity
  rw [hcapacity, hempty]
  exact hpositive

/-- A byte that is used up makes room for another. -/
theorem Slack.consume_piece (h : f.Slack) (hfill : f.fill = (.ok (), g)) {limit : Nat}
    (hpiece : g.piece limit ≠ []) : f.Thrifty (g.consume (g.piece limit).length) := by
  have hstock := f.fill_stock
  obtain ⟨hcapacity, hfull, -⟩ := fill_buffer h
  rw [hfill] at hstock hcapacity hfull
  have hused := List.length_pos_iff.2 hpiece
  have hpositive : 0 < f.capacity := Nat.zero_lt_of_lt h
  refine ⟨hcapacity, ?_, hstock⟩
  change (g.buffer.drop (g.piece limit).length).length < g.capacity
  rw [List.length_drop, hcapacity]
  change g.buffer.length ≤ f.capacity at hfull
  omega

/-! ### The two loops -/

/-- **What is read of a line is all that is used of the buffer.** -/
theorem readUntil_thrifty (limit : Nat) (line : Bytes) (h : f.Slack) :
    f.Thrifty (f.readUntil limit line).2 := by
  fun_induction Feed.readUntil limit line f with
  | case1 => exact .refl h
  | case2 limit line f hlimit g hfill ih =>
      have hg := h.fill_error hfill
      exact hg.trans (ih hg.slack)
  | case3 limit line f hlimit cause g hcause hfill => exact h.fill_error hfill
  | case4 limit line f hlimit g hfill hpiece =>
      exact h.fill_empty hfill ((piece_eq_nil hlimit).1 hpiece)
  | case5 limit line f hlimit g hfill hpiece => exact h.consume_piece hfill hpiece
  | case6 limit line f hlimit g hfill hpiece hlast ih =>
      have hg := h.consume_piece hfill hpiece
      exact hg.trans (ih hg.slack)

/-- **What is dropped of a line is all that is used of the buffer.** -/
theorem discardLine_thrifty (h : f.Slack) : f.Thrifty f.discardLine.2 := by
  fun_induction Feed.discardLine f with
  | case1 f cause g hfill => exact h.fill_error hfill
  | case2 f g hfill hpiece => exact h.fill_empty hfill (piece_buffer_eq_nil.1 hpiece)
  | case3 f g hfill hpiece => exact h.consume_piece hfill hpiece
  | case4 f g hfill hpiece hlast ih =>
      have hg := h.consume_piece hfill hpiece
      exact hg.trans (ih hg.slack)

/-! ### One call for a line -/

/-- **A call takes fewer bytes too many than the buffer holds.** -/
theorem nextLine_thrifty (limit : Nat) (h : f.Slack) : f.Thrifty (f.nextLine limit).2 := by
  unfold nextLine
  split
  · exact .refl h
  · have hread := readUntil_thrifty (limit + 1) [] h
    rcases hline : f.readUntil (limit + 1) [] with ⟨cause | line, g⟩
    · rw [hline] at hread
      exact hread
    · rw [hline] at hread
      simp only
      split
      · exact hread
      · split
        · have hdiscard := discardLine_thrifty hread.slack
          rcases hrest : g.discardLine with ⟨cause | _, u⟩
          · rw [hrest] at hdiscard
            exact hread.trans hdiscard
          · rw [hrest] at hdiscard
            exact hread.trans hdiscard
        · exact hread

/-- With a buffer of one byte a call takes from the source what it reads, and nothing else. -/
theorem nextLine_sparing (limit : Nat) (h : f.Bare) : f.Sparing (f.nextLine limit).2 := by
  have hslack : f.Slack := by
    rw [Slack, h.buffer, h.capacity]
    exact Nat.zero_lt_one
  obtain ⟨hcapacity, hroom, hstock⟩ := nextLine_thrifty limit hslack
  rw [h.capacity] at hcapacity
  refine ⟨⟨hcapacity, List.length_eq_zero_iff.1 ?_⟩, hstock⟩
  rw [Slack, hcapacity] at hroom
  omega

/-- The whole of a byte string, read through a buffer of one byte. -/
def unbuffered (bytes : Bytes) : Feed := { source := { chunks := [.data bytes] }, capacity := 1 }

/-- Of nothing a call gives the end. -/
theorem nextLine_nothing {limit : Nat} (hlimit : limit + 1 < twoTo 64) :
    (unbuffered []).nextLine limit =
      (.ok .endOfInput, { source := { chunks := [] }, capacity := 1 }) := by
  have hread : (unbuffered []).readUntil (limit + 1) [] =
      (.ok [], { source := { chunks := [] }, capacity := 1 }) := by
    rw [readUntil, if_neg (Nat.succ_ne_zero limit)]
    rfl
  rw [nextLine, if_neg (Nat.not_le.2 hlimit), hread]
  rfl

/-- **What a call takes is the first line, and nothing more.**  The line is given as one, or as one
that is too long; without any bytes the call gives the end. -/
theorem nextLine_unbuffered (bytes : Bytes) {limit : Nat} (hlimit : limit + 1 < twoTo 64) :
    ((unbuffered bytes).nextLine limit).1 =
        .ok (if bytes = [] then .endOfInput else .ofPiece limit (throughNewline bytes)) ∧
      ((unbuffered bytes).nextLine limit).2.source.taken = (throughNewline bytes).length := by
  have hbare : (unbuffered bytes).Bare := ⟨rfl, rfl⟩
  have hrest : (unbuffered bytes).rest = bytes := by simp [rest, unbuffered, Chunk.bytes]
  have hstock : (unbuffered bytes).stock = bytes.length := by
    rw [stock, ← hbare.rest, hrest]
    exact Nat.zero_add _
  have hsparing := nextLine_sparing limit hbare
  obtain ⟨g, hgives, hleft⟩ : ∃ g, (unbuffered bytes).nextLine limit =
      (.ok (if bytes = [] then .endOfInput else .ofPiece limit (throughNewline bytes)), g) ∧
        g.rest = bytes.drop (throughNewline bytes).length := by
    by_cases hbytes : bytes = []
    · rw [hbytes, if_pos rfl]
      exact ⟨_, nextLine_nothing hlimit, rfl⟩
    · have hsteady : (unbuffered bytes).Steady := by
        refine ⟨Nat.le_refl 1, ?_⟩
        intro chunk hchunk
        exact ⟨bytes, hbytes, List.mem_singleton.1 hchunk⟩
      obtain ⟨g, hg, hnext⟩ := hsteady.nextLine hlimit
      rw [hrest] at hg hnext
      refine ⟨g, hnext, ?_⟩
      rw [hg.rest, hrest]
  rw [hgives] at hsparing ⊢
  refine ⟨rfl, ?_⟩
  -- without a buffer what is not left in the stream has been taken from it
  have hlength : g.left.length = bytes.length - (throughNewline bytes).length := by
    rw [← hsparing.bare.rest, hleft, List.length_drop]
  have htaken : g.source.taken + g.left.length = bytes.length := hsparing.stock.trans hstock
  have hle := length_throughNewline_le bytes
  change g.source.taken = (throughNewline bytes).length
  omega

end Feed

end JobShell
