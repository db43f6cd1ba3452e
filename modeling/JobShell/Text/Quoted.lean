/-
**Names in diagnostics.**

A name in a diagnostic stands between quotation marks, and is written so that a reader can tell
what its bytes are.  There are two ways.  In an escaped name a backslash stands before quotation
marks and backslashes, and bytes that cannot be printed are written as escapes.  A name for a shell
is one that a shell would read as that name again.

Main definitions:

* `JobShell.Quoted.escaped` — an escaped name;
* `JobShell.Quoted.forShell` — a name for a shell;
* `JobShell.Quoted.needsMarks`, `JobShell.Quoted.plainForShell` — the same without marks where a
  shell needs none;
* `JobShell.Quoted.doubled` — a name between double marks.
-/

import JobShell.Bytes

set_option autoImplicit false

namespace JobShell.Quoted

/-- The quotation mark. -/
def mark : UInt8 := 39

/-- The byte that begins an escape. -/
def backslash : UInt8 := 92

/-- Whether a byte can be printed. -/
def isPrintable (c : UInt8) : Bool := 32 ≤ c && c ≤ 126

/-- The letter that stands for a control byte after a backslash. -/
def controlLetter? (c : UInt8) : Option UInt8 :=
  ([7, 8, 9, 10, 11, 12, 13].zip (utf8 "abtnvfr")).lookup c

/-- The escape of a byte that cannot be printed: a letter, or three octal digits. -/
def escape (c : UInt8) : Bytes :=
  backslash :: match controlLetter? c with
    | some letter => [letter]
    | none => [48 + c / 64, 48 + c / 8 % 8, 48 + c % 8]

/-- A name between quotation marks, with escapes. -/
def escaped (name : Bytes) : Bytes :=
  mark :: name.flatMap (fun c =>
    if c = mark ∨ c = backslash then [backslash, c]
    else if isPrintable c then [c]
    else escape c) ++ [mark]

/-! ### Names for a shell -/

/-- Whether a shell takes a byte for something else than itself, wherever it stands. -/
def isSpecial (c : UInt8) : Bool :=
  (utf8 " !\"$&'()*;<=>?[\\^`|").contains c || !isPrintable c

/-- Whether a name must stand between marks for a shell to read it. -/
def needsMarks (name : Bytes) : Bool :=
  name = [] || name = [123] || name = [125] || name.head? = some 35 || name.head? = some 126
    || name.any isSpecial

/-- Whether a byte means itself between double marks too, in this place of a name. -/
def isMild (atStart alone : Bool) (c : UInt8) : Bool :=
  (48 ≤ c && c ≤ 57) || (65 ≤ c && c ≤ 90) || (97 ≤ c && c ≤ 122)
    || (utf8 " '%+,-./:@]_").contains c || (atStart && (c = 35 || c = 126))
    || (alone && (c = 123 || c = 125))

/-- A name without what stands before its first and after its last mark.  The flag says that
escapes are being written, for which the marks are opened in another way. -/
def shellBody : Bool → Bytes → Bytes
  | _, [] => []
  | escaping, c :: name =>
    if c = mark then [mark, backslash, mark, mark] ++ shellBody false name
    else if isPrintable c then
      (if escaping then [mark, mark] else []) ++ c :: shellBody false name
    else (if escaping then [] else [mark, 36, mark]) ++ escape c ++ shellBody true name

/-- A name between marks for a shell: double ones if that avoids breaking it at a mark. -/
def forShell (name : Bytes) : Bytes :=
  let mild := (name.zip (List.range name.length)).all fun (c, i) =>
    isMild (i = 0) (name.length = 1) c
  if name.contains mark ∧ mild then 34 :: name ++ [34]
  else mark :: shellBody false name ++ [mark]

/-- A name for a shell, between marks only if it must be. -/
def plainForShell (name : Bytes) : Bytes := if needsMarks name then forShell name else name

/-! ### Double marks -/

/-- A name between double marks, with escapes. -/
def doubled (name : Bytes) : Bytes :=
  34 :: name.flatMap (fun c =>
    if c = 34 ∨ c = backslash then [backslash, c]
    else if isPrintable c then [c]
    else escape c) ++ [34]

/-- A name before or after a colon, between double marks if it must be. -/
def besideColon (name : Bytes) : Bytes :=
  if name.any fun c => c = 34 || c = 58 || !isPrintable c then doubled name else name

end JobShell.Quoted
