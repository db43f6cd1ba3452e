/-
**Expanding words.**

A word is expanded to bytes that remember where they come from: what was quoted is kept as it is,
and only what an expansion put in is split into fields.  Fields that hold unquoted patterns are
then replaced by the paths that fit them.

Main definitions:

* `JobShell.Script.Glyph` — a byte, and where it comes from;
* `JobShell.Script.expand` — the glyphs of a word;
* `JobShell.Script.fieldsOf` — splitting into fields;
* `JobShell.Script.expandFields`, `JobShell.Script.expandText`, `JobShell.Script.expandPattern` —
  words as arguments, as one text, and as a pattern.
-/

import JobShell.Script.Arithmetic
import JobShell.Script.State
import JobShell.Script.Users
import JobShell.Text.Glob

set_option autoImplicit false

namespace JobShell.Script

/-- A byte of an expanded word, and where it comes from. -/
inductive Glyph where
  | plain (c : UInt8)
  | quoted (c : UInt8)
  | expanded (c : UInt8)
  /-- Quotes stand here, even if there is nothing between them. -/
  | hollow
  /-- A field ends here. -/
  | cut
  deriving DecidableEq, Repr, Inhabited

namespace Glyph

/-- The byte of a glyph. -/
def byte? : Glyph → Option UInt8
  | plain c | quoted c | expanded c => some c
  | hollow | cut => none

/-- The byte of a glyph, and whether it stands for itself in a pattern. -/
def marked? : Glyph → Option (UInt8 × Bool)
  | plain c | expanded c => some (c, false)
  | quoted c => some (c, true)
  | hollow | cut => none

end Glyph

/-- The kind of text that is expanded. -/
inductive Quoting where
  /-- Text without quotes: `inner` if it stands inside an expansion and is split like one,
  `assigned` if it is a value, in which a tilde has a meaning after colons, too. -/
  | bare (inner assigned : Bool)
  | double
  /-- Text that is given as input, in which quotes are ordinary. -/
  | here
  deriving DecidableEq, Repr, Inhabited

namespace Quoting

/-- Whether quotes have their meaning in a text. -/
def isBare : Quoting → Bool
  | bare _ _ => true
  | _ => false

/-- Whether a tilde has a meaning after colons. -/
def isAssigned : Quoting → Bool
  | bare _ assigned => assigned
  | _ => false

/-- The same kind of text inside an expansion. -/
def deeper : Quoting → Quoting
  | bare _ assigned => bare true assigned
  | q => q

/-- The glyph of a byte of the text itself. -/
def glyph : Quoting → UInt8 → Glyph
  | bare false _, c => .plain c
  | bare true _, c => .expanded c
  | _, c => .quoted c

/-- The glyphs of a value. -/
def glyphs (q : Quoting) (s : Bytes) : List Glyph :=
  s.map (if q.isBare then .expanded else .quoted)

end Quoting

/-! ### Parameters -/

/-- The value of a parameter. -/
def State.parameter? (s : State) (name : Bytes) : Option Bytes :=
  match name with
  | [35] => some (Bytes.ofNat s.arguments.length)
  | [63] => some (Bytes.ofNat s.status)
  | [36] => some (Programs.ofInt s.pid)
  | [33] => s.lastBackground.map Programs.ofInt
  | [45] => some s.optionLetters
  | [48] => some s.name
  | [64] | [42] => if s.arguments = [] then none else some (Bytes.join 32 s.arguments)
  | _ =>
    match digits? name with
    | some n => s.arguments[n - 1]?
    | none => s.valueOf? name

/-- The glyphs of all arguments. -/
def State.allArguments (s : State) (q : Quoting) (star : Bool) : List Glyph :=
  if q.isBare then
    [Glyph.cut].intercalate (s.arguments.map q.glyphs)
  else if star then
    q.glyphs (match s.separators with
      | [] => s.arguments.flatten
      | c :: _ => Bytes.join c s.arguments)
  else [Glyph.cut].intercalate (s.arguments.map fun a => .hollow :: q.glyphs a)

/-- The shortest or longest beginning of a text that fits a pattern is taken off. -/
def trimStart (g : Glob) (longest : Bool) (s : Bytes) : Bytes :=
  let cuts := (List.range (s.length + 1)).filter fun n => g.accepts (s.take n)
  match if longest then cuts.getLast? else cuts.head? with
  | some n => s.drop n
  | none => s

/-- The shortest or longest end of a text that fits a pattern is taken off. -/
def trimEnd (g : Glob) (longest : Bool) (s : Bytes) : Bytes :=
  let cuts := (List.range (s.length + 1)).filter fun n => g.accepts (s.drop n)
  match if longest then cuts.head? else cuts.getLast? with
  | some n => s.take n
  | none => s

/-- The name of the parameter at the front of a text. -/
def parameterName (s : Bytes) : Bytes :=
  match s with
  | [] => []
  | c :: _ =>
    if isName [c] then s.takeWhile fun d => isName [d] || (48 ≤ d && d ≤ 57)
    else if 48 ≤ c ∧ c ≤ 57 ∨ [35, 63, 36, 33, 45, 64, 42].contains c then [c]
    else []

/-- The name of the parameter at the front of a text in braces, where numbers may be long. -/
def bracedName (s : Bytes) : Bytes :=
  let digits := s.takeWhile fun c => 48 ≤ c && c ≤ 57
  if digits ≠ [] then digits else parameterName s

/-- Takes the newlines off the end of a text. -/
def dropNewlines (s : Bytes) : Bytes := (s.reverse.dropWhile (· = newline)).reverse

/-- The script between backquotes, as it is run. -/
def backquoted : Bytes → Bytes
  | 92 :: c :: s =>
    if c = 36 ∨ c = 96 ∨ c = 92 then c :: backquoted s else 92 :: c :: backquoted s
  | c :: s => c :: backquoted s
  | [] => []

/-- The text inside what is open, and the rest; everything if it is not closed. -/
def insideOf (open' : Nesting) (s : Bytes) : Bytes × Bytes :=
  match inside open' s with
  | .ok r => r
  | .error _ => (s, [])

/-- The expression of an arithmetic expansion. -/
def arithmetic? (s : Bytes) : Option (Bytes × Bytes) :=
  match s with
  | 40 :: 40 :: _ =>
    let (text, rest) := insideOf .parens (s.drop 1)
    if text.getLast? = some 41 then some ((text.drop 1).dropLast, rest) else none
  | _ => none

/-- The pattern of glyphs. -/
def globOf (gs : List Glyph) : Glob := Glob.ofMarked (gs.filterMap Glyph.marked?)

/-- The text of glyphs. -/
def textOf (gs : List Glyph) : Bytes :=
  gs.filterMap fun
    | .cut => some 32
    | g => g.byte?

/-- The user and the rest of a text after a tilde: the name goes on to the next slash, or to a
colon in a value, and must not be quoted. -/
def tildeUser? (assigned : Bool) (s : Bytes) : Option (Bytes × Bytes) :=
  let name := s.takeWhile fun c => c ≠ slash && !(assigned && c = 58)
  if name.any fun c => c = 39 || c = 34 || c = 92 then none else some (name, s.drop name.length)

/-- The home directory that a tilde before a text stands for, and the rest of that text. -/
def State.tilde? (s : State) (assigned : Bool) (text : Bytes) : Option (Bytes × Bytes) :=
  (tildeUser? assigned text).bind fun (name, rest) =>
    match if name = [] then s.valueOf? (utf8 "HOME") else homeOf? name with
    | none | some [] => none
    | some home => some (home, rest)

section

/-- The value of a parameter, which must have one if the script is told so. -/
def demandValue (name : Bytes) (value : Option Bytes) : Eval Bytes := do
  match value with
  | some text => return text
  | none =>
    if (← get).has 'u' ∧ name ≠ [64] ∧ name ≠ [42] then
      fail (name ++ utf8 ": parameter not set")
    else return []

/-- Whether a text is all of the arguments and nothing else. -/
def isAllArguments (text : Bytes) : Bool :=
  text = [36, 64] || text = [36, 123, 64, 125]

/-! ### Words

Throughout, `run` gives what a script writes that stands in the middle of a word and begins on a
line. -/

variable (run : Nat → Bytes → Eval Bytes)

mutual

/-- The glyphs of a word that goes on on a line.  The length of the word bounds the steps. -/
def expand : Nat → Nat → Quoting → Bytes → Eval (List Glyph)
  | 0, _, _, _ => return []
  | _, _, _, [] => return []
  | n + 1, line, q, c :: s =>
    let after (text : Bytes) : Nat := line + newlines text
    if c = 92 then
      match s with
      | [] => return [q.glyph c]
      | d :: s =>
        let special := [36, 96, 92].contains d || (d = 34 && q = .double)
        if d = newline then expand n (line + 1) q s
        else if q.isBare ∨ special then return .quoted d :: (← expand n line q s)
        else return .quoted c :: .quoted d :: (← expand n line q s)
    else if c = 39 ∧ q.isBare then do
      let (text, rest) := insideOf .single s
      return .hollow :: text.map .quoted ++ (← expand n (after text) q rest)
    else if c = 34 ∧ q.isBare then do
      let (text, rest) := insideOf .double s
      let gs ← expand n line .double text
      let empty := isAllArguments text && gs.isEmpty
      return (if empty then gs else .hollow :: gs) ++ (← expand n (after text) q rest)
    else if c = 96 then do
      let (text, rest) := insideOf .back s
      let out ← run 1 (backquoted text)
      return q.glyphs (dropNewlines out) ++ (← expand n (after text) q rest)
    else if c = 36 then expandDollar n line q s
    else if c = 58 ∧ q.isAssigned ∧ s.head? = some 126 then
      return q.glyph c :: (← expandTilde n line q s)
    else return q.glyph c :: (← expand n (after [c]) q s)

/-- The glyphs of a text in which a tilde at the front has its meaning. -/
def expandTilde : Nat → Nat → Quoting → Bytes → Eval (List Glyph)
  | 0, _, _, _ => return []
  | n + 1, line, q, s => do
    match q.isBare && s.head? == some 126, (← get).tilde? q.isAssigned (s.drop 1) with
    | true, some (home, rest) => return home.map .quoted ++ (← expand n line q rest)
    | true, none => return q.glyph 126 :: (← expand n line q (s.drop 1))
    | false, _ => expand n line q s

/-- The glyphs of what follows a dollar sign. -/
def expandDollar : Nat → Nat → Quoting → Bytes → Eval (List Glyph)
  | 0, _, _, _ => return []
  | n + 1, line, q, s =>
    match arithmetic? s with
    | some (text, rest) => do
      let written ← expand n line .double text
      let state ← get
      match Arithmetic.value state.parameter? (textOf written) with
      | .ok (value, assigned) =>
        for (name, number) in assigned.reverse do
          assign name (Programs.ofInt number)
        return q.glyphs (Programs.ofInt value) ++ (← expand n (line + newlines text) q rest)
      | .error mistake => fail (mistake.message (textOf written))
    | none =>
      match s with
      | 40 :: s => do
        let (text, rest) := insideOf .parens s
        let out ← run line text
        return q.glyphs (dropNewlines out) ++ (← expand n (line + newlines text) q rest)
      | 123 :: s => do
        let (text, rest) := insideOf .braces s
        let gs ← expandBraces n line q text
        return gs ++ (← expand n (line + newlines text) q rest)
      | s => do
        let name := parameterName s
        let state ← get
        let rest := s.drop name.length
        if name = [] then return q.glyph 36 :: (← expand n line q s)
        else if name = [64] ∨ name = [42] then
          return state.allArguments q (name = [42]) ++ (← expand n line q rest)
        else
          return q.glyphs (← demandValue name (state.parameter? name)) ++ (← expand n line q rest)

/-- The glyphs of a parameter in braces. -/
def expandBraces : Nat → Nat → Quoting → Bytes → Eval (List Glyph)
  | 0, _, _, _ => return []
  | n + 1, line, q, text => do
    let state ← get
    match text with
    | 35 :: c :: s =>
      let value ← demandValue (c :: s) (state.parameter? (c :: s))
      return q.glyphs (Bytes.ofNat value.length)
    | _ =>
      let name := bracedName text
      if name = [] then fail (utf8 "Bad substitution")
      else
        let rest := text.drop name.length
        let value := state.parameter? name
        let plainly : List Glyph :=
          if name = [64] ∨ name = [42] then state.allArguments q (name = [42])
          else q.glyphs (value.getD [])
        let (strict, rest) := match rest with
          | 58 :: rest => (true, rest)
          | rest => (false, rest)
        let missing := value.isNone || (strict && value = some [])
        let trimmed (cut : Glob → Bytes → Bytes) (word : Bytes) : Eval (List Glyph) := do
          let value ← demandValue name value
          return q.glyphs (cut (globOf (← expandTilde n line (.bare false false) word)) value)
        match rest with
        | [] =>
          let _ ← demandValue name value
          return plainly
        | 45 :: word => if missing then expandTilde n line q.deeper word else return plainly
        | 43 :: word => if missing then return [] else expandTilde n line q.deeper word
        | 61 :: word =>
          if missing then
            let text := textOf (← expandTilde n line q word)
            assign name text
            return q.glyphs text
          else return plainly
        | 63 :: word =>
          if missing then
            let text := textOf (← expandTilde n line q word)
            let reason := if word ≠ [] then text
              else utf8 (if strict then "parameter not set or null" else "parameter not set")
            fail (name ++ utf8 ": " ++ reason)
          else return plainly
        | 35 :: 35 :: word => trimmed (trimStart · true) word
        | 35 :: word => trimmed (trimStart · false) word
        | 37 :: 37 :: word => trimmed (trimEnd · true) word
        | 37 :: word => trimmed (trimEnd · false) word
        | _ => fail (utf8 "Bad substitution")

end

/-- More steps than the expansion of a text takes. -/
def expansionDepth (text : Bytes) : Nat := 2 * text.length + 3

/-- The glyphs of a word. -/
def expandWord (word : Word) : Eval (List Glyph) :=
  expandTilde run (expansionDepth word.text) word.line (.bare false false) word.text

/-- A word as one text. -/
def expandText (word : Word) : Eval Bytes := do
  return textOf (← expandWord run word)

/-- The text of a value that a variable is given. -/
def expandValue (word : Word) : Eval Bytes := do
  return textOf
    (← expandTilde run (expansionDepth word.text) word.line (.bare false true) word.text)

/-- A word as a pattern. -/
def expandPattern (word : Word) : Eval Glob := do
  return globOf (← expandWord run word)

/-- Text that is given as input. -/
def expandHere (text : Word) : Eval Bytes := do
  return textOf (← expand run (expansionDepth text.text) text.line .here text.text)

end

/-! ### Fields -/

/-- Splits glyphs into fields.  `current` is the field that has begun, if one has; `spaced` says
that a blank has ended the one before. -/
def splitFields (separators : Bytes) (current : Option (List Glyph)) (spaced : Bool) :
    List Glyph → List (List Glyph)
  | [] => current.toList.map List.reverse
  | g :: gs =>
    match g with
    | .cut => current.toList.map List.reverse ++ splitFields separators none false gs
    | .expanded c =>
      if separators.contains c then
        let blank := c = 32 || c = 9 || c = newline
        match current with
        | some field =>
          field.reverse :: splitFields separators none blank gs
        | none =>
          if blank ∨ spaced then splitFields separators none (blank && spaced) gs
          else [] :: splitFields separators none false gs
      else splitFields separators (some (g :: current.getD [])) false gs
    | _ => splitFields separators (some (g :: current.getD [])) false gs

/-- The fields of glyphs. -/
def fieldsOf (separators : Bytes) (gs : List Glyph) : List (List Glyph) :=
  splitFields separators none false gs

/-- The names in a directory, as a script sees them. -/
def namesIn (directory : Bytes) : Eval (List Bytes) := do
  match ← ask (.list (if directory = [] then FileSystem.dot else directory)) with
  | .ok names => return (FileSystem.dot :: FileSystem.dotDot :: names).mergeSort Bytes.le
  | .error _ => return []

/-- Whether a name fits a pattern; a dot at its front must be written. -/
def fits (g : Glob) (name : Bytes) : Bool :=
  g.accepts name && (name.head? ≠ some 46 || g.head? = some (.byte 46))

/-- The paths that fit a row of patterns, after a path that leads to them. -/
def pathsFor (start : Bytes) : List (List (UInt8 × Bool)) → Eval (List Bytes)
  | [] => return []
  | [part] => do
    let g := Glob.ofMarked part
    if g.isProper then
      return ((← namesIn start).filter (fits g)).map (start ++ ·)
    else
      let path := start ++ part.map (·.1)
      match ← ask (.status path false) with
      | .ok _ => return [path]
      | .error _ => return []
  | part :: rest => do
    let g := Glob.ofMarked part
    if g.isProper then
      let names := (← namesIn start).filter (fits g)
      let found ← names.mapM fun name => pathsFor (start ++ name ++ [slash]) rest
      return found.flatten
    else pathsFor (start ++ part.map (·.1) ++ [slash]) rest

/-- Splits marked bytes at slashes. -/
def componentsOf : List (UInt8 × Bool) → List (List (UInt8 × Bool))
  | [] => [[]]
  | c :: s =>
    match componentsOf s with
    | [] => [[c]]
    | part :: parts => if c.1 = slash then [] :: part :: parts else (c :: part) :: parts

/-- The paths that a field stands for, or its text. -/
def expandPaths (field : List Glyph) : Eval (List Bytes) := do
  if (globOf field).isProper ∧ (← get).has 'f' = false then
    match ← pathsFor [] (componentsOf (field.filterMap Glyph.marked?)) with
    | [] => return [textOf field]
    | paths => return paths
  else return [textOf field]

/-- Splits an assignment. -/
def assignmentOf (word : Word) : Bytes × Word :=
  let name := word.text.takeWhile (· ≠ 61)
  (name, { word with text := word.text.drop (name.length + 1) })

/-- A word as arguments. -/
def expandField (run : Nat → Bytes → Eval Bytes) (word : Word) : Eval (List Bytes) := do
  let gs ← expandWord run word
  let fields := fieldsOf (← get).separators gs
  let texts ← fields.mapM expandPaths
  return texts.flatten

/-- Words as arguments.  If they are `declared`, those that look like assignments are kept in one
piece. -/
def expandFields (run : Nat → Bytes → Eval Bytes) (declared : Bool) :
    List Word → Eval (List Bytes)
  | [] => return []
  | word :: rest => do
    let fields ← if declared && isAssignment word.text then do
        let (name, value) := assignmentOf word
        pure [name ++ 61 :: (← expandValue run value)]
      else expandField run word
    return fields ++ (← expandFields run declared rest)

end JobShell.Script
