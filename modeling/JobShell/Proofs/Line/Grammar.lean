/-
**The grammar of lines, and where a line fails to follow it.**

A line is a sequence of pipelines, a pipeline a sequence of slots, and a slot is empty or a sequence
of words and redirections with at least one word.  The rules are stated here over tokens, and
through `JobShell.Reads` over byte strings.  What does not follow them has a fault: a redirection
sign without a word after it, or a slot that ends with redirections and no word.

The parser cuts the tokens at the separators and reads each segment by itself; the proofs go along
that cut, by an induction in which a token list is a segment or a segment, a separator and a
shorter list (`JobShell.segment_induction`).

Main definitions:

* `JobShell.Elements`, `JobShell.SlotOf`, `JobShell.SlotsOf`, `JobShell.LineOf` — the grammar;
* `JobShell.Derives` — a byte string derives a line;
* `JobShell.FaultAt` — a fault, and how many tokens stand before it;
* `JobShell.FirstFault` — the leftmost fault of a byte string.

Main results:

* `JobShell.parseTokens_cut`, `JobShell.parseTokens_join` — the parser is compositional in the
  separators;
* `JobShell.parse_decides` — **the parser accepts what the grammar derives, and tells the leftmost
  fault of everything else**.
-/

import JobShell.Line.Parse
import JobShell.Proofs.Line.Reading
import JobShell.Proofs.Steps

set_option autoImplicit false

namespace JobShell

/-! ### The grammar -/

/-- Words and redirections in any order: the tokens, the words, and the redirections. -/
inductive Elements : List Token → List Bytes → List Redirection → Prop
  | nil : Elements [] [] []
  | word {w : Bytes} {tokens : List Token} {words : List Bytes} {redirections : List Redirection} :
      Elements tokens words redirections →
        Elements (.item (.word w) :: tokens) (w :: words) redirections
  | redirection {d : Direction} {w : Bytes} {tokens : List Token} {words : List Bytes}
      {redirections : List Redirection} :
      Elements tokens words redirections →
        Elements (.item (.sign d) :: .item (.word w) :: tokens) words (⟨d, w⟩ :: redirections)

/-- A slot is empty, or it has at least one word. -/
inductive SlotOf : List Token → Option Command → Prop
  | empty : SlotOf [] none
  | command {tokens : List Token} {name : Bytes} {arguments : List Bytes}
      {redirections : List Redirection} :
      Elements tokens (name :: arguments) redirections →
        SlotOf tokens (some ⟨name, arguments, redirections⟩)

/-- The slots of a pipeline have `|` between them. -/
inductive SlotsOf : List Token → List (Option Command) → Prop
  | last {tokens : List Token} {slot : Option Command} :
      SlotOf tokens slot → SlotsOf tokens [slot]
  | pipe {first rest : List Token} {slot : Option Command} {slots : List (Option Command)} :
      SlotOf first slot → SlotsOf rest slots →
        SlotsOf (first ++ .separator .pipe :: rest) (slot :: slots)

/-- The pipelines of a line have `;` or `&` between them; those before `&` run in the background. -/
inductive LineOf : List Token → Line → Prop
  | last {tokens : List Token} {slots : List (Option Command)} :
      SlotsOf tokens slots → LineOf tokens [⟨slots, false⟩]
  | sequence {first rest : List Token} {slots : List (Option Command)} {line : Line} :
      SlotsOf first slots → LineOf rest line →
        LineOf (first ++ .separator .sequence :: rest) (⟨slots, false⟩ :: line)
  | background {first rest : List Token} {slots : List (Option Command)} {line : Line} :
      SlotsOf first slots → LineOf rest line →
        LineOf (first ++ .separator .background :: rest) (⟨slots, true⟩ :: line)

/-- A byte string derives a line. -/
def Derives (t : Bytes) (line : Line) : Prop := ∃ tokens, Reads t tokens ∧ LineOf tokens line

/-! ### Faults -/

/-- A token that ends a slot. -/
def Token.IsSeparator (x : Token) : Prop := ∃ s, x = .separator s

/-- A fault in a token list, and the number of tokens before it. -/
inductive FaultAt : List Token → Nat → LineError → Prop
  /-- A sign that no word follows. -/
  | emptyRedirect {before after : List Token} {d : Direction} :
      (∀ w, after.head? ≠ some (.item (.word w))) →
        FaultAt (before ++ .item (.sign d) :: after) before.length .emptyRedirect
  /-- A slot of redirections alone; the fault is where the slot ends. -/
  | bareSlot {before slot after : List Token} {r : Redirection} {rs : List Redirection} :
      (∀ x, before.getLast? = some x → x.IsSeparator) → Elements slot [] (r :: rs) →
        (∀ x, after.head? = some x → x.IsSeparator) →
          FaultAt (before ++ slot ++ after) (before.length + slot.length) .redirectionWithoutCommand

/-- The leftmost fault of a token list. -/
def FirstFaultOf (tokens : List Token) (e : LineError) : Prop :=
  ∃ k, FaultAt tokens k e ∧ ∀ j e', FaultAt tokens j e' → k ≤ j

/-- The leftmost fault of a byte string. -/
def FirstFault (t : Bytes) (e : LineError) : Prop :=
  ∃ tokens, Reads t tokens ∧ FirstFaultOf tokens e

/-! ### Token lists, cut at the separators -/

/-- A token list is a segment, or a segment, a separator and a shorter list. -/
theorem segment_induction {motive : List Token → Prop}
    (segment : ∀ items : List Item, motive (items.map .item))
    (cut : ∀ (items : List Item) (s : Separator) (rest : List Token), motive rest →
      motive (items.map .item ++ .separator s :: rest)) (tokens : List Token) : motive tokens := by
  -- the motive is strengthened by the items that already stand in front
  suffices h : ∀ (tokens : List Token) (items : List Item), motive (items.map .item ++ tokens) from
    by simpa using h tokens []
  intro tokens
  induction tokens with
  | nil => intro items; simpa using segment items
  | cons x tokens ih =>
      intro items
      cases x with
      | item i => simpa using ih (items ++ [i])
      | separator s => exact cut items s tokens (by simpa using ih [])

@[simp] theorem segments_map_item (items : List Item) :
    segments (items.map .item) = (items, []) := by
  induction items with
  | nil => rfl
  | cons i items ih => simp [segments, ih]

@[simp] theorem segments_cut (items : List Item) (s : Separator) (rest : List Token) :
    segments (items.map .item ++ .separator s :: rest) =
      (items, (s, (segments rest).1) :: (segments rest).2) := by
  induction items with
  | nil => simp [segments]
  | cons i items ih => simp [segments, ih]

/-- Puts a slot and the separator after it in front of a line. -/
def Line.attach (slot : Option Command) : Separator → Line → Line
  | .pipe, line => Line.consSlot slot line
  | .sequence, line => ⟨[slot], false⟩ :: line
  | .background, line => ⟨[slot], true⟩ :: line

theorem parseTokens_segment (items : List Item) :
    parseTokens (items.map .item) = (readSlot items).map fun slot => [⟨[slot], false⟩] := by
  cases h : readSlot items <;> simp [parseTokens, h, readSlots, assemble, bind, Except.bind,
    pure, Except.pure, Except.map]

/-- The parser reads a segment, then what follows the separator, and puts the two together. -/
theorem parseTokens_cut (items : List Item) (s : Separator) (rest : List Token) :
    parseTokens (items.map .item ++ .separator s :: rest) =
      (readSlot items).bind fun slot => (parseTokens rest).map (Line.attach slot s) := by
  cases h : readSlot items with
  | error e => simp [parseTokens, h, bind, Except.bind]
  | ok slot =>
      cases h₁ : readSlot (segments rest).1 with
      | error e =>
          simp [parseTokens, h, h₁, readSlots, bind, Except.bind, Except.map]
      | ok next =>
          cases h₂ : readSlots (segments rest).2 <;> cases s <;>
            simp [parseTokens, h, h₁, h₂, readSlots, assemble, Line.attach, bind, Except.bind,
              pure, Except.pure, Except.map]

/-! ### Slots -/

@[simp] theorem collect_word (w : Bytes) (items : List Item) :
    collect (.word w :: items) = (collect items).map fun p => (w :: p.1, p.2) := by
  cases h : collect items <;>
    simp [collect, h, bind, Except.bind, pure, Except.pure, Except.map]

@[simp] theorem collect_redirection (d : Direction) (w : Bytes) (items : List Item) :
    collect (.sign d :: .word w :: items) =
      (collect items).map fun p => (p.1, ⟨d, w⟩ :: p.2) := by
  cases h : collect items <;>
    simp [collect, h, bind, Except.bind, pure, Except.pure, Except.map]

theorem collect_sign {items : List Item} (d : Direction)
    (h : ∀ w, items.head? ≠ some (.word w)) :
    collect (.sign d :: items) = .error .emptyRedirect := by
  rcases items with _ | ⟨w | _, items⟩
  · rfl
  · exact absurd rfl (h w)
  · rfl

/-- The only error in a segment's words and redirections. -/
theorem collect_error {items : List Item} {e : LineError} (h : collect items = .error e) :
    e = .emptyRedirect := by
  fun_induction collect items with
  | case1 => simp at h
  | case2 w items ih | case3 d w items ih =>
      rcases error_of_bind h with hrest | ⟨p, -, hok⟩
      · exact ih hrest
      · cases hok
  | case4 => simpa using h.symm

/-- Only items stand in words and redirections. -/
theorem Elements.exists_items {tokens : List Token} {words : List Bytes}
    {redirections : List Redirection} (h : Elements tokens words redirections) :
    ∃ items : List Item, tokens = items.map .item := by
  induction h with
  | nil => exact ⟨[], rfl⟩
  | @word w _ _ _ _ ih =>
      obtain ⟨items, rfl⟩ := ih
      exact ⟨.word w :: items, rfl⟩
  | @redirection d w _ _ _ _ ih =>
      obtain ⟨items, rfl⟩ := ih
      exact ⟨.sign d :: .word w :: items, rfl⟩

/-- Without words and redirections there is no token. -/
theorem Elements.eq_nil {tokens : List Token} (h : Elements tokens [] []) : tokens = [] := by
  cases h
  rfl

theorem elements_of_collect {items : List Item} {words : List Bytes}
    {redirections : List Redirection} (h : collect items = .ok (words, redirections)) :
    Elements (items.map .item) words redirections := by
  induction items using collect.induct generalizing words redirections with
  | case1 =>
      obtain ⟨rfl, rfl⟩ : [] = words ∧ [] = redirections := by simpa [collect] using h
      exact Elements.nil
  | case2 w items ih =>
      rw [collect_word] at h
      obtain ⟨p, hrest, hp⟩ := eq_ok_of_map h
      obtain ⟨rfl, rfl⟩ := Prod.mk.inj hp
      exact Elements.word (ih hrest)
  | case3 d w items ih =>
      rw [collect_redirection] at h
      obtain ⟨p, hrest, hp⟩ := eq_ok_of_map h
      obtain ⟨rfl, rfl⟩ := Prod.mk.inj hp
      exact Elements.redirection (ih hrest)
  | case4 d items hw =>
      rw [collect_sign] at h
      · simp at h
      · intro w hhead
        cases items with
        | nil => simp at hhead
        | cons i rest => exact hw w rest (by simpa using hhead)

/-- A segment consists of words and redirections as it is collected. -/
theorem elements_iff {items : List Item} {words : List Bytes} {redirections : List Redirection} :
    Elements (items.map .item) words redirections ↔
      collect items = .ok (words, redirections) := by
  refine ⟨fun h => ?_, elements_of_collect⟩
  generalize hi : items.map Token.item = tokens at h
  induction h generalizing items with
  | nil => simp [List.map_eq_nil_iff.1 hi, collect]
  | word _ ih =>
      obtain ⟨_, rest, rfl, h₁, h₂⟩ := List.map_eq_cons_iff.1 hi
      obtain rfl := Token.item.inj h₁
      rw [collect_word, ih h₂]
      rfl
  | redirection _ ih =>
      obtain ⟨_, rest, rfl, h₁, h₂⟩ := List.map_eq_cons_iff.1 hi
      obtain ⟨_, rest, rfl, h₃, h₄⟩ := List.map_eq_cons_iff.1 h₂
      obtain rfl := Token.item.inj h₁
      obtain rfl := Token.item.inj h₃
      rw [collect_redirection, ih h₄]
      rfl

theorem SlotOf.exists_items {tokens : List Token} {slot : Option Command}
    (h : SlotOf tokens slot) : ∃ items : List Item, tokens = items.map .item := by
  cases h with
  | empty => exact ⟨[], rfl⟩
  | command h => exact h.exists_items

/-- A segment is a slot as it is read. -/
theorem slotOf_iff {items : List Item} {slot : Option Command} :
    SlotOf (items.map .item) slot ↔ readSlot items = .ok slot := by
  constructor
  · intro h
    generalize hi : items.map Token.item = tokens at h
    cases h with
    | empty =>
        rw [List.map_eq_nil_iff.1 hi]
        rfl
    | command h =>
        subst hi
        rw [readSlot, elements_iff.1 h]
        rfl
  · intro h
    obtain ⟨⟨words, redirections⟩, hcollect, hmake⟩ := eq_ok_of_bind h
    rcases words with _ | ⟨name, arguments⟩
    · cases redirections with
      | nil =>
          obtain rfl : none = slot := Except.ok.inj hmake
          rw [(elements_iff.2 hcollect).eq_nil]
          exact SlotOf.empty
      | cons => cases hmake
    · obtain rfl : some ⟨name, arguments, redirections⟩ = slot := Except.ok.inj hmake
      exact SlotOf.command (elements_iff.2 hcollect)

/-! ### The parser accepts what the grammar derives -/

/-- A slot and `|` before a line of the grammar give one more slot of its first pipeline. -/
theorem LineOf.consSlot {first rest : List Token} {slot : Option Command} {line : Line}
    (hs : SlotOf first slot) (h : LineOf rest line) :
    LineOf (first ++ .separator .pipe :: rest) (Line.consSlot slot line) := by
  cases h with
  | last h => exact LineOf.last (SlotsOf.pipe hs h)
  | sequence h hline =>
      rw [← List.cons_append, ← List.append_assoc]
      exact LineOf.sequence (SlotsOf.pipe hs h) hline
  | background h hline =>
      rw [← List.cons_append, ← List.append_assoc]
      exact LineOf.background (SlotsOf.pipe hs h) hline

theorem lineOf_of_parseTokens {tokens : List Token} {line : Line}
    (h : parseTokens tokens = .ok line) : LineOf tokens line := by
  induction tokens using segment_induction generalizing line with
  | segment items =>
      rw [parseTokens_segment] at h
      obtain ⟨slot, hs, rfl⟩ := eq_ok_of_map h
      exact LineOf.last (SlotsOf.last (slotOf_iff.2 hs))
  | cut items s rest ih =>
      rw [parseTokens_cut] at h
      obtain ⟨slot, hs, h⟩ := eq_ok_of_bind h
      obtain ⟨tail, hr, rfl⟩ := eq_ok_of_map h
      have hslot : SlotOf (items.map .item) slot := slotOf_iff.2 hs
      cases s with
      | pipe => exact (ih hr).consSlot hslot
      | sequence => exact LineOf.sequence (SlotsOf.last hslot) (ih hr)
      | background => exact LineOf.background (SlotsOf.last hslot) (ih hr)

/-- What the parser makes of a slot and a separator. -/
theorem parseTokens_slot {first rest : List Token} {slot : Option Command} {line : Line}
    (s : Separator) (hs : SlotOf first slot) (h : parseTokens rest = .ok line) :
    parseTokens (first ++ .separator s :: rest) = .ok (Line.attach slot s line) := by
  obtain ⟨items, rfl⟩ := hs.exists_items
  rw [parseTokens_cut, slotOf_iff.1 hs, h]
  rfl

theorem parseTokens_of_lineOf {tokens : List Token} {line : Line} (h : LineOf tokens line) :
    parseTokens tokens = .ok line := by
  induction h with
  | @last tokens slots hs =>
      induction hs with
      | last hs =>
          obtain ⟨items, rfl⟩ := hs.exists_items
          rw [parseTokens_segment, slotOf_iff.1 hs]
          rfl
      | pipe hs _ ih => exact parseTokens_slot .pipe hs ih
  | sequence hs _ ih =>
      induction hs with
      | last hs => exact parseTokens_slot .sequence hs ih
      | pipe hs _ ihs =>
          rw [List.append_assoc, List.cons_append]
          exact parseTokens_slot .pipe hs ihs
  | background hs _ ih =>
      induction hs with
      | last hs => exact parseTokens_slot .background hs ih
      | pipe hs _ ihs =>
          rw [List.append_assoc, List.cons_append]
          exact parseTokens_slot .pipe hs ihs

theorem lineOf_iff {tokens : List Token} {line : Line} :
    LineOf tokens line ↔ parseTokens tokens = .ok line :=
  ⟨parseTokens_of_lineOf, lineOf_of_parseTokens⟩

/-! ### A line on either side of a separator -/

/-- A line has a pipeline, if only a blank one. -/
theorem ne_nil_of_parseTokens {tokens : List Token} {line : Line}
    (h : parseTokens tokens = .ok line) : line ≠ [] := by
  cases lineOf_of_parseTokens h <;> simp

/-- **The parser reads what stands before a separator, then what stands after it, and joins the
two.**  The join is known from what it makes of one slot and a line, if a slot that is put in front
of the first line is put in front of both. -/
theorem parseTokens_join {s : Separator} {join : Line → Line → Line}
    (hslot : ∀ slot line, join [⟨[slot], false⟩] line = Line.attach slot s line)
    (hattach : ∀ slot s' (line line' : Line), line ≠ [] →
      Line.attach slot s' (join line line') = join (Line.attach slot s' line) line')
    (first rest : List Token) :
    parseTokens (first ++ .separator s :: rest) =
      (parseTokens first).bind fun line => (parseTokens rest).map (join line) := by
  induction first using segment_induction with
  | segment items =>
      rw [parseTokens_cut, parseTokens_segment]
      cases readSlot items with
      | error e => rfl
      | ok slot => exact congrArg (Except.map · _) (funext fun line => (hslot slot line).symm)
  | cut items s' first ih =>
      rw [List.append_assoc, List.cons_append, parseTokens_cut, ih, parseTokens_cut]
      cases readSlot items with
      | error e => rfl
      | ok slot =>
          cases hfirst : parseTokens first with
          | error e => rfl
          | ok line =>
              cases parseTokens rest with
              | error e => rfl
              | ok line' =>
                  exact congrArg Except.ok
                    (hattach slot s' line line' (ne_nil_of_parseTokens hfirst))

/-! ### Faults, cut at the separators -/

theorem FaultAt.le_length {tokens : List Token} {k : Nat} {e : LineError}
    (h : FaultAt tokens k e) : k ≤ tokens.length := by
  cases h with
  | emptyRedirect _ => simp
  | bareSlot _ _ _ => simp only [List.length_append]; omega

/-- There are two kinds of faults, and what stands at its place tells which one a fault is. -/
theorem FaultAt.kind {tokens : List Token} {k : Nat} {e : LineError} (h : FaultAt tokens k e) :
    (e = .emptyRedirect ∧ ∃ d, tokens[k]? = some (.item (.sign d))) ∨
      (e = .redirectionWithoutCommand ∧ ∀ x, tokens[k]? = some x → x.IsSeparator) := by
  cases h with
  | @emptyRedirect before after d _ => exact Or.inl ⟨rfl, d, by simp⟩
  | @bareSlot before slot after r rs _ _ hafter =>
      refine Or.inr ⟨rfl, fun x hx => hafter x ?_⟩
      rw [← List.length_append, List.getElem?_append_right (Nat.le_refl _), Nat.sub_self] at hx
      rwa [List.head?_eq_getElem?]

/-- Two faults at one place are the same fault. -/
theorem FaultAt.unique {tokens : List Token} {k : Nat} {e e' : LineError}
    (h : FaultAt tokens k e) (h' : FaultAt tokens k e') : e = e' := by
  rcases h.kind with ⟨rfl, d, hd⟩ | ⟨rfl, hs⟩ <;> rcases h'.kind with ⟨rfl, d', hd'⟩ | ⟨rfl, hs'⟩
  · rfl
  · obtain ⟨s, hs⟩ := hs' _ hd
    cases hs
  · obtain ⟨s, hs⟩ := hs _ hd'
    cases hs
  · rfl

/-- A fault stays when a separator and more tokens follow. -/
theorem FaultAt.append_right {tokens : List Token} {k : Nat} {e : LineError}
    (h : FaultAt tokens k e) (s : Separator) (rest : List Token) :
    FaultAt (tokens ++ .separator s :: rest) k e := by
  cases h with
  | @emptyRedirect before after d hafter =>
      rw [List.append_assoc, List.cons_append]
      refine FaultAt.emptyRedirect fun w => ?_
      cases after with
      | nil => simp
      | cons x after => simpa using hafter w
  | @bareSlot before slot after r rs hbefore hslot hafter =>
      rw [List.append_assoc (before ++ slot)]
      refine FaultAt.bareSlot hbefore hslot fun x hx => ?_
      cases after with
      | nil => exact ⟨s, by simpa using hx.symm⟩
      | cons y after => exact hafter x (by simpa using hx)

/-- A fault moves along when tokens and a separator come before. -/
theorem FaultAt.append_left {rest : List Token} {k : Nat} {e : LineError} (h : FaultAt rest k e)
    (tokens : List Token) (s : Separator) :
    FaultAt (tokens ++ .separator s :: rest) (tokens.length + 1 + k) e := by
  cases h with
  | @emptyRedirect before after d hafter =>
      have := @FaultAt.emptyRedirect (tokens ++ .separator s :: before) after d hafter
      simpa [Nat.add_assoc, Nat.add_comm 1] using this
  | @bareSlot before slot after r rs hbefore hslot hafter =>
      have hopen : ∀ x, (tokens ++ .separator s :: before).getLast? = some x →
          x.IsSeparator := by
        intro x hx
        cases hlast : before.getLast? with
        | none =>
            obtain rfl := List.getLast?_eq_none_iff.1 hlast
            exact ⟨s, by simpa using hx.symm⟩
        | some y =>
            obtain rfl : y = x := by simpa [List.getLast?_cons, hlast] using hx
            exact hbefore y hlast
      have := FaultAt.bareSlot hopen hslot hafter
      simpa [Nat.add_assoc, Nat.add_comm 1, Nat.add_left_comm 1] using this

/-- A list that ends with an item does not end with a separator. -/
theorem eq_nil_of_prefix_items {before after : List Token} {items : List Item}
    (h : items.map .item = before ++ after)
    (hbefore : ∀ x, before.getLast? = some x → x.IsSeparator) : before = [] := by
  cases hlast : before.getLast? with
  | none => exact List.getLast?_eq_none_iff.1 hlast
  | some x =>
      obtain ⟨s, rfl⟩ := hbefore x hlast
      have hmem : Token.separator s ∈ items.map Token.item := by
        rw [h]
        exact List.mem_append_left _ (List.mem_of_getLast? hlast)
      simp at hmem

/-- A fault of a cut token list is one of the segment in front or one of the rest. -/
theorem FaultAt.cut {items : List Item} {s : Separator} {rest : List Token} {k : Nat}
    {e : LineError} (h : FaultAt (items.map .item ++ .separator s :: rest) k e) :
    FaultAt (items.map .item) k e ∨
      ∃ j, k = items.length + 1 + j ∧ FaultAt rest j e := by
  -- the token list of a fault is an append, so it has to be a variable for the cases
  generalize htokens : items.map Token.item ++ .separator s :: rest = tokens at h
  cases h with
  | @emptyRedirect before after d hafter =>
      rcases List.append_eq_append_iff.1 htokens with ⟨us, rfl, hus⟩ | ⟨us, hitems, hus⟩
      · -- the sign stands behind the separator
        right
        cases us with
        | nil => simp at hus
        | cons x us =>
            obtain ⟨rfl, rfl⟩ : Token.separator s = x ∧ rest = us ++ .item (.sign d) :: after := by
              simpa using hus
            exact ⟨us.length, by simp; omega, FaultAt.emptyRedirect hafter⟩
      · -- the sign stands in the segment in front; what follows it there follows it here
        left
        cases us with
        | nil => simp at hus
        | cons x us =>
            obtain ⟨rfl, rfl⟩ : Token.item (.sign d) = x ∧ after = us ++ .separator s :: rest := by
              simpa using hus
            rw [hitems]
            refine FaultAt.emptyRedirect fun w hw => hafter w ?_
            cases us with
            | nil => simp at hw
            | cons y us => simpa using hw
  | @bareSlot before slot after r rs hbefore hslot hafter =>
      obtain ⟨slotItems, rfl⟩ := hslot.exists_items
      rw [List.append_assoc] at htokens
      rcases List.append_eq_append_iff.1 htokens with ⟨us, rfl, hus⟩ | ⟨us, hitems, hus⟩
      · -- the segment in front stands before the slot
        cases us with
        | nil =>
            cases slotItems with
            | nil => cases hslot
            | cons i slotItems => simp at hus
        | cons x us =>
            right
            obtain ⟨rfl, rfl⟩ :
                Token.separator s = x ∧ rest = us ++ (slotItems.map .item ++ after) := by
              simpa using hus
            refine ⟨us.length + slotItems.length, by simp; omega, ?_⟩
            rw [← List.append_assoc]
            have hopen : ∀ y, us.getLast? = some y → y.IsSeparator := fun y hy =>
              hbefore y (by simp [List.getLast?_cons, hy])
            simpa using FaultAt.bareSlot hopen hslot hafter
      · -- the slot begins where the segment does, and ends where it does
        left
        obtain rfl := eq_nil_of_prefix_items hitems hbefore
        obtain rfl : items.map Token.item = us := by simpa using hitems
        have hsame : slotItems.map Token.item = items.map Token.item := by
          rcases List.append_eq_append_iff.1 hus with ⟨vs, hvs, hafter'⟩ | ⟨vs, hvs, hafter'⟩
          · cases vs with
            | nil => simpa using hvs.symm
            | cons y vs =>
                obtain ⟨t, rfl⟩ := hafter y (by simp [hafter'])
                have hmem : Token.separator t ∈ items.map Token.item := by simp [hvs]
                simp at hmem
          · cases vs with
            | nil => simpa using hvs
            | cons y vs =>
                obtain rfl : Token.separator s = y := by simpa using (List.cons.inj hafter').1
                have hmem : Token.separator s ∈ slotItems.map Token.item := by simp [hvs]
                simp at hmem
        have hfault : FaultAt ([] ++ slotItems.map Token.item ++ [])
            (([] : List Token).length + (slotItems.map Token.item).length)
              .redirectionWithoutCommand :=
          FaultAt.bareSlot (by simp) hslot (by simp)
        rw [← hsame]
        simpa using hfault

/-! ### The parser tells the leftmost fault -/

theorem collect_of_dangling {before after : List Item} {d : Direction}
    (h : ∀ w, after.head? ≠ some (.word w)) :
    collect (before ++ .sign d :: after) = .error .emptyRedirect := by
  induction before using collect.induct with
  | case1 => exact collect_sign d h
  | case2 w items ih => simp [ih, Except.map]
  | case3 d' w items ih => simp [ih, Except.map]
  | case4 d' items hw =>
      refine collect_sign d' fun w hhead => ?_
      cases items with
      | nil => simp at hhead
      | cons i items => exact hw w items (by simpa using hhead)

theorem exists_dangling_of_collect {items : List Item} {e : LineError}
    (h : collect items = .error e) :
    ∃ before d after, items = before ++ .sign d :: after ∧
      ∀ w, after.head? ≠ some (.word w) := by
  induction items using collect.induct with
  | case1 => simp [collect] at h
  | case2 w items ih =>
      obtain ⟨before, d, after, rfl, hafter⟩ := ih (error_of_map h)
      exact ⟨.word w :: before, d, after, rfl, hafter⟩
  | case3 d w items ih =>
      obtain ⟨before, d', after, rfl, hafter⟩ := ih (error_of_map h)
      exact ⟨.sign d :: .word w :: before, d', after, rfl, hafter⟩
  | case4 d items hw =>
      refine ⟨[], d, items, rfl, fun w hhead => ?_⟩
      cases items with
      | nil => simp at hhead
      | cons i items => exact hw w items (by simpa using hhead)

/-- A segment with a fault is not read as a slot: the fault is its error. -/
theorem readSlot_of_faultAt {items : List Item} {k : Nat} {e : LineError}
    (h : FaultAt (items.map .item) k e) : readSlot items = .error e := by
  generalize hi : items.map Token.item = tokens at h
  cases h with
  | @emptyRedirect before after d hafter =>
      obtain ⟨before, rest, rfl, -, hrest⟩ := List.map_eq_append_iff.1 hi
      obtain ⟨i, after, rfl, hi', rfl⟩ := List.map_eq_cons_iff.1 hrest
      obtain rfl := Token.item.inj hi'
      have : collect (before ++ .sign d :: after) = .error .emptyRedirect :=
        collect_of_dangling fun w hw => hafter w (by simp [hw])
      rw [readSlot, this]
      rfl
  | @bareSlot before slot after r rs hbefore hslot hafter =>
      rw [List.append_assoc] at hi
      obtain rfl := eq_nil_of_prefix_items hi hbefore
      have hnil : after = [] := by
        cases after with
        | nil => rfl
        | cons x after =>
            obtain ⟨s, rfl⟩ := hafter x rfl
            have hmem : Token.separator s ∈ items.map Token.item := by simp [hi]
            simp at hmem
      rw [List.nil_append, hnil, List.append_nil] at hi
      rw [readSlot, elements_iff.1 (hi ▸ hslot)]
      rfl

/-- A segment that is not read as a slot has a fault. -/
theorem exists_faultAt_of_readSlot {items : List Item} {e : LineError}
    (h : readSlot items = .error e) : ∃ k, FaultAt (items.map .item) k e := by
  rcases error_of_bind h with hcollect | ⟨⟨words, redirections⟩, hcollect, hmake⟩
  · -- a sign without a word after it
    obtain rfl := collect_error hcollect
    obtain ⟨before, d, after, rfl, hafter⟩ := exists_dangling_of_collect hcollect
    refine ⟨(before.map Token.item).length, ?_⟩
    rw [List.map_append, List.map_cons]
    refine FaultAt.emptyRedirect fun w hw => ?_
    cases after with
    | nil => simp at hw
    | cons i after => exact hafter w (by simpa using hw)
  · -- redirections and no word
    rcases words with _ | ⟨name, arguments⟩
    · cases redirections with
      | nil => cases hmake
      | cons r rs =>
          obtain rfl := Except.error.inj hmake
          have := @FaultAt.bareSlot [] _ [] r rs (by simp) (elements_iff.2 hcollect) (by simp)
          exact ⟨_, by simpa using this⟩
    · cases hmake

/-- Where there is a fault there is a leftmost one. -/
theorem exists_least_fault {tokens : List Token} {k : Nat} {e : LineError}
    (h : FaultAt tokens k e) :
    ∃ k₀ e₀, k₀ ≤ k ∧ FaultAt tokens k₀ e₀ ∧ ∀ j e', FaultAt tokens j e' → k₀ ≤ j := by
  induction k using Nat.strongRecOn generalizing e with
  | ind k ih =>
      by_cases hless : ∃ j, j < k ∧ ∃ e', FaultAt tokens j e'
      · obtain ⟨j, hj, e', h'⟩ := hless
        obtain ⟨k₀, e₀, hk₀, h₀, hleast⟩ := ih j hj h'
        exact ⟨k₀, e₀, by omega, h₀, hleast⟩
      · refine ⟨k, e, Nat.le_refl k, h, fun j e' h' => ?_⟩
        exact Nat.le_of_not_lt fun hj => hless ⟨j, hj, e', h'⟩

/-- What the parser accepts has no fault. -/
theorem no_fault_of_parseTokens {tokens : List Token} {line : Line}
    (h : parseTokens tokens = .ok line) {k : Nat} {e : LineError} : ¬FaultAt tokens k e := by
  induction tokens using segment_induction generalizing line k with
  | segment items =>
      intro hf
      rw [parseTokens_segment, readSlot_of_faultAt hf] at h
      cases h
  | cut items s rest ih =>
      intro hf
      rw [parseTokens_cut] at h
      rcases hf.cut with hf | ⟨j, -, hf⟩
      · rw [readSlot_of_faultAt hf] at h
        cases h
      · obtain ⟨slot, -, h⟩ := eq_ok_of_bind h
        obtain ⟨tail, hr, -⟩ := eq_ok_of_map h
        exact ih hr hf

/-- What the parser refuses, it refuses for the leftmost fault. -/
theorem firstFault_of_parseTokens {tokens : List Token} {e : LineError}
    (h : parseTokens tokens = .error e) : FirstFaultOf tokens e := by
  induction tokens using segment_induction with
  | segment items =>
      rw [parseTokens_segment] at h
      have hs := error_of_map h
      obtain ⟨k, hk⟩ := exists_faultAt_of_readSlot hs
      obtain ⟨k₀, e₀, -, h₀, hleast⟩ := exists_least_fault hk
      obtain rfl : e₀ = e := by simpa [hs] using (readSlot_of_faultAt h₀).symm
      exact ⟨k₀, h₀, hleast⟩
  | cut items s rest ih =>
      rw [parseTokens_cut] at h
      rcases error_of_bind h with hs | ⟨slot, hs, hrest⟩
      · -- the segment in front has a fault, and so the leftmost one
        obtain ⟨k, hk⟩ := exists_faultAt_of_readSlot hs
        obtain ⟨k₀, e₀, hk₀, h₀, hleast⟩ := exists_least_fault (hk.append_right s rest)
        have hlen : k ≤ items.length := by simpa using hk.le_length
        rcases h₀.cut with hf | ⟨j, hj, -⟩
        · obtain rfl : e₀ = e := by simpa [hs] using (readSlot_of_faultAt hf).symm
          exact ⟨k₀, h₀, hleast⟩
        · omega
      · -- it has none, and every fault is one of the rest
        obtain ⟨k, hk, hleast⟩ := ih (error_of_map hrest)
        refine ⟨(items.map Token.item).length + 1 + k, hk.append_left _ s, ?_⟩
        intro j e' hj
        rcases hj.cut with hf | ⟨i, rfl, hf⟩
        · rw [readSlot_of_faultAt hf] at hs
          cases hs
        · have := hleast i e' hf
          simp only [List.length_map]
          omega

theorem firstFaultOf_iff {tokens : List Token} {e : LineError} :
    FirstFaultOf tokens e ↔ parseTokens tokens = .error e := by
  refine ⟨?_, firstFault_of_parseTokens⟩
  rintro ⟨k, hk, hleast⟩
  cases h : parseTokens tokens with
  | ok line => exact absurd hk (no_fault_of_parseTokens h)
  | error e' =>
      obtain ⟨k', hk', hleast'⟩ := firstFault_of_parseTokens h
      obtain rfl : k = k' := Nat.le_antisymm (hleast _ _ hk') (hleast' _ _ hk)
      rw [hk.unique hk']

/-- The parser gives a line exactly if the byte string derives it. -/
theorem parse_eq_ok_iff {t : Bytes} {line : Line} : parse t = .ok line ↔ Derives t line := by
  simp [Derives, reads_iff, lineOf_iff, parse]

/-- **The parser decides the grammar.**  It gives a line exactly when the byte string derives that
line, so that no byte string derives two.  It gives an error exactly when that is the leftmost fault
of the byte string.  Every byte string derives a line or has a leftmost fault, which is a sign
without a word or a slot without a command. -/
theorem parse_decides (t : Bytes) :
    (∀ line, parse t = .ok line ↔ Derives t line) ∧
      (∀ e, parse t = .error e ↔ FirstFault t e) ∧
      ((∃ line, Derives t line) ∨ ∃ e, FirstFault t e) ∧
      ∀ e, FirstFault t e →
        (e = .emptyRedirect ∧ e.message = "empty redirect") ∨
          (e = .redirectionWithoutCommand ∧ e.message = "redirection without command") := by
  have derives : ∀ line, parse t = .ok line ↔ Derives t line := fun _ => parse_eq_ok_iff
  have faulty : ∀ e, parse t = .error e ↔ FirstFault t e := by
    intro e
    simp [FirstFault, reads_iff, firstFaultOf_iff, parse]
  refine ⟨derives, faulty, ?_, ?_⟩
  · cases h : parse t with
    | ok line => exact Or.inl ⟨line, (derives line).1 h⟩
    | error e => exact Or.inr ⟨e, (faulty e).1 h⟩
  · rintro e ⟨tokens, -, k, hk, -⟩
    rcases hk.kind with ⟨rfl, -⟩ | ⟨rfl, -⟩
    · exact Or.inl ⟨rfl, rfl⟩
    · exact Or.inr ⟨rfl, rfl⟩

/-- The leftmost fault counts, and a slot without a command has it where the slot ends:
`> a ; b <` fails before the second sign. -/
example : parse [62, 97, 59, 98, 60] = .error .redirectionWithoutCommand := rfl

/-- A sign without a word comes before the end of its slot: `> a <`. -/
example : parse [62, 97, 60] = .error .emptyRedirect := rfl

end JobShell
