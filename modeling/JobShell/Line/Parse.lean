/-
**Reading a line.**

The tokens of a line are cut at the separators.  Each segment between two separators is read by
itself as a slot, and the separators then say which slots form a pipeline.  The first segment that
cannot be read, from the left, is the error of the line.

Main definitions:

* `JobShell.segments` — a token list cut at its separators;
* `JobShell.readSlot` — one segment as a slot;
* `JobShell.assemble` — slots and separators as pipelines;
* `JobShell.parse` — the line that a byte string is.
-/

import JobShell.Line.Token

set_option autoImplicit false

namespace JobShell

/-- The items before the first separator, and for each separator the items that follow it up to
the next one. -/
def segments : List Token → List Item × List (Separator × List Item)
  | [] => ([], [])
  | .item i :: tokens =>
    let (first, rest) := segments tokens
    (i :: first, rest)
  | .separator s :: tokens =>
    let (first, rest) := segments tokens
    ([], (s, first) :: rest)

/-- The words and the redirections of a segment.  A sign takes the word after it as its target. -/
def collect : List Item → Except LineError (List Bytes × List Redirection)
  | [] => .ok ([], [])
  | .word w :: items => do
    let (words, redirections) ← collect items
    return (w :: words, redirections)
  | .sign d :: .word w :: items => do
    let (words, redirections) ← collect items
    return (words, ⟨d, w⟩ :: redirections)
  | .sign _ :: _ => .error .emptyRedirect

/-- The slot that words and redirections make. -/
def makeSlot : List Bytes × List Redirection → Except LineError (Option Command)
  | ([], []) => .ok none
  | ([], _ :: _) => .error .redirectionWithoutCommand
  | (name :: arguments, redirections) => .ok (some ⟨name, arguments, redirections⟩)

/-- Reads a segment as a slot. -/
def readSlot (items : List Item) : Except LineError (Option Command) :=
  collect items >>= makeSlot

/-- Reads the segments after the first, from the left. -/
def readSlots : List (Separator × List Item) → Except LineError (List (Separator × Option Command))
  | [] => .ok []
  | (s, items) :: rest => do
    let slot ← readSlot items
    let slots ← readSlots rest
    return (s, slot) :: slots

/-- Puts a slot in front of the first pipeline of a line. -/
def Line.consSlot (slot : Option Command) : Line → Line
  | [] => [⟨[slot], false⟩]
  | draft :: line => { draft with slots := slot :: draft.slots } :: line

/-- The line that slots and the separators between them make. -/
def assemble : Option Command → List (Separator × Option Command) → Line
  | slot, [] => [⟨[slot], false⟩]
  | slot, (.pipe, next) :: rest => Line.consSlot slot (assemble next rest)
  | slot, (.sequence, next) :: rest => ⟨[slot], false⟩ :: assemble next rest
  | slot, (.background, next) :: rest => ⟨[slot], true⟩ :: assemble next rest

/-- Reads tokens as a line. -/
def parseTokens (tokens : List Token) : Except LineError Line := do
  let (first, rest) := segments tokens
  let slot ← readSlot first
  let slots ← readSlots rest
  return assemble slot slots

/-- Reads a byte string as a line. -/
def parse (text : Bytes) : Except LineError Line := parseTokens (scan text)

end JobShell
