/-
**A diagnostic is one line.**

What a child says before it gives up names the target of a redirection or the program, as text.
Reading bytes as text makes no line of its own: a character that ends a line comes from the byte
that ends a line and from nothing else, in either direction.  So a diagnostic is one line, unless
the name that it gives is not.

Main results:

* `JobShell.newline_mem_utf8` — from text to bytes;
* `JobShell.Utf8.newline_mem_of_decodeLossy` — from bytes to text;
* `JobShell.LaunchError.newline_notMem_opening` — a redirection that fails is told in one line.
-/

import JobShell.Launch

set_option autoImplicit false

namespace JobShell

/-! ### From text to bytes -/

theorem utf8_eq (text : String) : utf8 text = text.toList.flatMap String.utf8EncodeChar := by
  have htext : text = String.ofList text.toList := String.ofList_toList.symm
  have hbytes : text.toByteArray = (text.toList.flatMap String.utf8EncodeChar).toByteArray := by
    rw [congrArg String.toByteArray htext, String.toByteArray_ofList]
    rfl
  unfold utf8 String.toUTF8
  rw [hbytes, List.data_toByteArray]

/-- The byte that ends a line is part of no other character. -/
theorem newline_mem_encode {c : Char} (h : newline ∈ String.utf8EncodeChar c) : c = '\n' := by
  have hbyte : ∀ n, newline = UInt8.ofNat n → n % 256 = 10 := fun n hn =>
    (congrArg UInt8.toNat hn).symm
  unfold String.utf8EncodeChar at h
  dsimp only at h
  -- only the first of the four lengths has a byte below 128
  split at h
  · rename_i hle
    have hval := hbyte _ (List.mem_singleton.1 h)
    refine Char.ext (UInt32.toNat_inj.1 ?_)
    rw [Nat.mod_eq_of_lt (by omega)] at hval
    exact hval
  · have hlarge : ∀ n, newline = UInt8.ofNat n → ¬128 ≤ n % 256 := fun n hn => by
      rw [hbyte n hn]
      decide
    split at h
    · simp only [List.mem_cons, List.not_mem_nil, or_false] at h
      rcases h with h | h
      all_goals exact absurd (by omega) (hlarge _ h)
    · split at h
      · simp only [List.mem_cons, List.not_mem_nil, or_false] at h
        rcases h with h | h | h
        all_goals exact absurd (by omega) (hlarge _ h)
      · simp only [List.mem_cons, List.not_mem_nil, or_false] at h
        rcases h with h | h | h | h
        all_goals exact absurd (by omega) (hlarge _ h)

theorem newline_mem_utf8 {text : String} (h : newline ∈ utf8 text) : '\n' ∈ text.toList := by
  rw [utf8_eq] at h
  obtain ⟨c, hc, hnewline⟩ := List.mem_flatMap.1 h
  rwa [newline_mem_encode hnewline] at hc

/-! ### From bytes to text -/

namespace Utf8

/-- Whether the value of a character of which some bytes have been read will be that of more than
one byte: it is not 0 any more, or the next byte, which is not the last one, makes it so. -/
def Partial.isLarge (p : Partial) : Bool :=
  match p.owed with
  | [] => false
  | (lo, _) :: rest => 1 ≤ p.value || (0x80 < lo && !rest.isEmpty)

/-- What a leading byte leaves open is larger than a byte, and what it completes is itself. -/
theorem lead_spec (b : UInt8) :
    (lead b).2.all Partial.isLarge = true ∧ (some '\n' ∈ (lead b).1 → b = newline) := by
  have hbytes : ∀ n < 256, (lead (UInt8.ofNat n)).2.all Partial.isLarge = true ∧
      (some '\n' ∈ (lead (UInt8.ofNat n)).1 → UInt8.ofNat n = newline) := by
    decide +kernel
  have hb := hbytes b.toNat b.toNat_lt
  rwa [UInt8.ofNat_toNat] at hb

theorem ofNat_ne_newline {n : Nat} (h : 64 ≤ n) : Char.ofNat n ≠ '\n' := by
  intro hn
  have htoNat := congrArg Char.toNat hn
  unfold Char.ofNat at htoNat
  by_cases hvalid : n.isValidChar
  · rw [dif_pos hvalid] at htoNat
    have : n = 10 := htoNat
    omega
  · rw [dif_neg hvalid] at htoNat
    cases htoNat

/-- **One byte** makes the character that ends a line only if it is that byte. -/
theorem feed_spec {state : Option Partial} (hstate : state.all Partial.isLarge = true) (b : UInt8) :
    (feed state b).2.all Partial.isLarge = true ∧ (some '\n' ∈ (feed state b).1 → b = newline) := by
  rcases state with _ | ⟨value, _ | ⟨⟨lo, hi⟩, owed⟩⟩
  · exact lead_spec b
  · cases hstate
  · have hlarge : 1 ≤ value ∨ 0x80 < lo ∧ owed ≠ [] := by
      simpa [Partial.isLarge] using hstate
    unfold feed
    dsimp only
    -- a byte that the character needs makes no newline, and any other one is read anew
    by_cases hb : lo ≤ b ∧ b ≤ hi
    · rw [if_pos hb]
      cases owed with
      | nil =>
          have hvalue : 1 ≤ value := by simpa using hlarge
          refine ⟨rfl, fun hmem => ?_⟩
          have hchar := Option.some.inj (List.mem_singleton.1 hmem)
          exact absurd hchar.symm (ofNat_ne_newline (by omega))
      | cons next rest =>
          have hvalue : 1 ≤ value * 64 + (b.toNat - 0x80) := by
            rcases hlarge with hvalue | ⟨hlo, -⟩
            · omega
            · have hlt : 0x80 < b.toNat := UInt8.lt_iff_toNat_lt.1 (UInt8.lt_of_lt_of_le hlo hb.1)
              omega
          refine ⟨?_, nofun⟩
          simp [Partial.isLarge, hvalue]
    · rw [if_neg hb]
      have hlead := lead_spec b
      rcases hb' : lead b with ⟨done, rest⟩
      rw [hb'] at hlead
      exact ⟨hlead.1, fun hmem => hlead.2 (by simpa using hmem)⟩

theorem scanFrom_spec {state : Option Partial} (hstate : state.all Partial.isLarge = true)
    (s : Bytes) (h : some '\n' ∈ scanFrom state s) : newline ∈ s := by
  induction s generalizing state with
  | nil =>
      cases state with
      | none => cases h
      | some p => simp [scanFrom] at h
  | cons b s ih =>
      obtain ⟨hopen, hdone⟩ := feed_spec hstate b
      have hscan : scanFrom state (b :: s) = (feed state b).1 ++ scanFrom (feed state b).2 s := by
        cases state <;> rfl
      rw [hscan] at h
      rcases List.mem_append.1 h with h | h
      · rw [hdone h]
        exact List.mem_cons_self ..
      · exact List.mem_cons_of_mem _ (ih hopen h)

theorem newline_mem_of_decodeLossy {s : Bytes} (h : '\n' ∈ (decodeLossy s).toList) :
    newline ∈ s := by
  unfold decodeLossy at h
  rw [String.toList_ofList] at h
  obtain ⟨c, hc, hnewline⟩ := List.mem_map.1 h
  cases c with
  | none => cases hnewline
  | some c =>
      obtain rfl : c = '\n' := hnewline
      have hnone : (none : Option Partial).all Partial.isLarge = true := rfl
      exact scanFrom_spec hnone s hc

end Utf8

/-! ### Diagnostics -/

namespace Errno

/-- The characters of the names and the descriptions, which are spelled out here so that no text is
decoded. -/
theorem table_texts :
    ∀ entry ∈ table, (∃ chars, entry.2.1 = String.ofList chars ∧ '\n' ∉ chars) ∧
      ∃ chars, entry.2.2 = String.ofList chars ∧ '\n' ∉ chars := by
  simp only [table, List.forall_mem_cons]
  repeat' apply And.intro
  all_goals first
    | exact ⟨_, rfl, by decide⟩
    | nofun

/-- A text that is found in a table is one line if all of them are. -/
theorem newline_notMem_of_lookup {α : Type} {entries : List (Nat × α)} (text : α → String)
    (htexts : ∀ entry ∈ entries, ∃ chars, text entry.2 = String.ofList chars ∧ '\n' ∉ chars)
    {code : Nat} {a : α} (h : entries.lookup code = some a) : '\n' ∉ (text a).toList := by
  obtain ⟨before, after, rfl, -⟩ := List.lookup_eq_some_iff.1 h
  obtain ⟨chars, hchars, hnewline⟩ :=
    htexts (code, a) (List.mem_append_right _ (List.mem_cons_self ..))
  rwa [hchars, String.toList_ofList]

theorem newline_notMem_description (e : Errno) : '\n' ∉ e.description.toList := by
  unfold description entry
  cases hlookup : table.lookup e.code with
  | none => decide
  | some entry =>
      exact newline_notMem_of_lookup Prod.snd (fun entry h => (table_texts entry h).2) hlookup

end Errno

namespace LaunchError

theorem newline_notMem_openReason (e : Errno) : '\n' ∉ (openReason e).toList := by
  unfold openReason
  repeat' split
  all_goals first
    | decide
    | exact e.newline_notMem_description

/-- **A redirection that fails is told in one line**, if its target is one. -/
theorem newline_notMem_opening {name : Bytes} (h : newline ∉ name) (errno : Errno) :
    newline ∉ utf8 (opening name errno).message := by
  intro hmem
  unfold message at hmem
  have htext := newline_mem_utf8 hmem
  rw [String.toList_append, String.toList_append, List.mem_append, List.mem_append] at htext
  rcases htext with (htext | htext) | htext
  · exact h (Utf8.newline_mem_of_decodeLossy htext)
  · revert htext
    decide
  · exact newline_notMem_openReason errno htext

end LaunchError

end JobShell
