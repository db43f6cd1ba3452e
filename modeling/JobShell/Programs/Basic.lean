/-
**What the installed programs have in common.**

Reading and writing in blocks, opening operands, and the wording of complaints.

Main definitions:

* `JobShell.Programs.say`, `JobShell.Programs.complain` — output and diagnostics;
* `JobShell.Programs.readAll`, `JobShell.Programs.forEachBlock`, `JobShell.Programs.forEachLines` —
  input;
* `JobShell.Programs.withOperand` — the file that an operand names, `-` being the input.
-/

import JobShell.Machine.Program
import JobShell.Number

set_option autoImplicit false

namespace JobShell.Programs

/-- The name under which a program was started. -/
def ownName (words : List Bytes) : Bytes := words.headD []

/-- Writes to a descriptor, and says whether that worked. -/
def emit (fd : Nat) (bytes : Bytes) : Prog Bool := do
  match ← Prog.writeAll fd bytes with
  | .ok () => return true
  | .error _ => return false

/-- Writes to the output. -/
def say (bytes : Bytes) : Prog Unit := do
  let _ ← emit 1 bytes

/-- Writes a diagnostic after the name of the program. -/
def complain (name : Bytes) (text : Bytes) : Prog Unit := do
  let _ ← emit 2 (name ++ utf8 ": " ++ text ++ [newline])

/-- A diagnostic about a named thing and an error. -/
def complainOf (name what : Bytes) (e : Errno) : Prog Unit :=
  complain name (what ++ utf8 (": " ++ e.systemText))

/-- How many bytes most programs read at a time. -/
def blockSize : Nat := 8192

/-- How many bytes programs read at a time that only copy. -/
def copySize : Nat := 131072

/-- The name of the standard input as an operand. -/
def dash : Bytes := [45]

/-- Hands every block of a descriptor to a function until there is no more, or the function has
enough. -/
def forEachBlock {s : Type} (fd size : Nat) (body : s → Bytes → Prog (s × Bool)) (state : s) :
    Prog (Except Errno s) :=
  Prog.repeatWhile
    (fun state => do
      match ← Prog.ask (.read fd size) with
      | .error errno => return .inr (.error errno)
      | .ok bytes =>
        if bytes = [] then return .inr (.ok state)
        else do
          let (state, enough) ← body state bytes
          return if enough then .inr (.ok state) else .inl state)
    .ok state

/-- Hands the lines of a descriptor to a function as they come, each with the byte that ends it.  The
last line may lack it. -/
def forEachLines {s : Type} (fd : Nat) (mark : UInt8) (body : s → List Bytes → Prog s)
    (state : s) : Prog (Except Errno s) := do
  let result ← forEachBlock fd blockSize (fun (begun, state) bytes => do
      let lines := Bytes.cutAfter mark (begun ++ bytes)
      let last := lines.getLastD []
      let begun := if last.getLast? = some mark then [] else last
      let state ← body state (if begun = [] then lines else lines.dropLast)
      return ((begun, state), false)) ([], state)
  match result with
  | .error errno => return .error errno
  | .ok ([], state) => return .ok state
  | .ok (begun, state) =>
    let state ← body state [begun]
    return .ok state

/-- Everything that can be read from a descriptor. -/
def readAll (fd : Nat) : Prog (Except Errno Bytes) := do
  match ← forEachBlock fd copySize (fun blocks bytes => return (bytes :: blocks, false)) [] with
  | .ok blocks => return .ok blocks.reverse.flatten
  | .error errno => return .error errno

/-- Runs a function on the descriptor of an operand: the input for `-`, else the file of that
name. -/
def withOperand {α : Type} (operand : Bytes) (body : Nat → Prog α) : Prog (Except Errno α) := do
  if operand = dash then
    let a ← body 0
    return .ok a
  else
    match ← Prog.ask (.openPath operand { read := true } 0) with
    | .error errno => return .error errno
    | .ok fd =>
      let a ← body fd
      let _ ← Prog.ask (.close fd)
      return .ok a

/-- The content of an operand. -/
def readOperand (operand : Bytes) : Prog (Except Errno Bytes) := do
  match ← withOperand operand readAll with
  | .ok result => return result
  | .error errno => return .error errno

/-- Opens a file for writing. -/
def openForWriting (path : Bytes) (append : Bool) : Prog (Except Errno Nat) :=
  Prog.ask (.openPath path
    { write := true, create := true, truncate := !append, append := append } 0o666)

/-- Runs a function on each element, and says whether all went well. -/
def forEach {α : Type} (xs : List α) (body : α → Prog Bool) : Prog Bool :=
  match xs with
  | [] => return true
  | x :: rest => do
    let ok ← body x
    let others ← forEach rest body
    return ok && others

/-- The exit code for success or failure. -/
def codeOf (ok : Bool) : Nat := if ok then 0 else 1

/-- Whether a letter is in a text. -/
def has (flags : Bytes) (c : Char) : Bool := flags.contains c.toUInt8

/-- The operands, or the input if there are none. -/
def orInput (operands : List Bytes) : List Bytes := if operands = [] then [dash] else operands

/-- A line without the byte that ends it. -/
def chompAt (mark : UInt8) (line : Bytes) : Bytes :=
  if line.getLast? = some mark then line.dropLast else line

/-- The lines of a text, without their newlines. -/
def linesOf (text : Bytes) : List Bytes := text.lines.map (chompAt newline)

/-- Lines with a byte after each. -/
def endLines (mark : UInt8) (lines : List Bytes) : Bytes := lines.flatMap fun line => line ++ [mark]

/-- Lines with a newline after each. -/
def unlines (lines : List Bytes) : Bytes := endLines newline lines

/-- Text pushed to the right in a field. -/
def padLeft (width : Nat) (text : Bytes) : Bytes :=
  List.replicate (width - text.length) 32 ++ text

/-- Text pushed to the left in a field. -/
def padRight (width : Nat) (text : Bytes) : Bytes :=
  text ++ List.replicate (width - text.length) 32

/-- A number in decimal digits, with a minus sign if it is negative. -/
def ofInt (n : Int) : Bytes := utf8 (Int.repr n)

/-- The number that an optional sign and digits write. -/
def int? (text : Bytes) : Option Int := signed? text

/-- The last part of a path, slashes at its end left out. -/
def baseName (path : Bytes) : Bytes :=
  match (FileSystem.parts path).getLast? with
  | some name => name
  | none => if path = [] then [] else [slash]

end JobShell.Programs
