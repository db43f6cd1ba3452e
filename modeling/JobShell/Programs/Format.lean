/-
**Writing arguments.**

Main definitions:

* `JobShell.Programs.echo` — arguments as they are;
* `JobShell.Programs.FormatStyle` — what formats and arguments may look like;
* `JobShell.Programs.formatted` — filling in a format, which starts over while arguments are left;
* `JobShell.Programs.printf` — arguments in a format.
-/

import JobShell.Programs.Request
import JobShell.Text.Conversion
import JobShell.Text.Escape

set_option autoImplicit false

namespace JobShell.Programs

/-! ### Arguments as they are -/

/-- The escapes of `echo`. -/
def echoEscapes : Escapes := { zero := true, bare := true, hex := true, cuts := true }

/-- The options of `echo`: whether to end with a newline, whether to replace escapes, and the
remaining words. -/
def echoOptions (ending escapes : Bool) : List Bytes → Bool × Bool × List Bytes
  | [] => (ending, escapes, [])
  | word :: rest =>
    match word with
    | 45 :: c :: letters =>
      if (c :: letters).all fun c => c = 110 || c = 101 || c = 69 then
        let last := (c :: letters).reverse.find? (· ≠ 110)
        echoOptions (ending && !(c :: letters).contains 110)
          (match last with
            | some c => c = 101
            | none => escapes) rest
      else (ending, escapes, word :: rest)
    | _ => (ending, escapes, word :: rest)

/-- Writes its arguments. -/
def echo (r : Request) : Prog Nat := do
  let (ending, escapes, rest) := echoOptions true false r.operands
  let text := Bytes.join 32 rest
  let (text, cut) := if escapes then unescape echoEscapes text else (text, none)
  let ok ← emit 1 (text ++ if ending ∧ cut.isNone then [newline] else [])
  return codeOf ok

/-! ### Formats -/

/-- What formats and arguments may look like. -/
structure FormatStyle where
  /-- The escapes of formats, and of the arguments of the conversion `b`. -/
  format : Escapes
  argument : Escapes
  /-- What is kept of a number with a point. -/
  kept : Decimal.Precision
  /-- Only what makes sense is allowed in front of a conversion, but more than one letter may tell the
  size of a number, and texts can be written between quotation marks. -/
  strict : Bool

/-- The style of `printf`. -/
def printfStyle : FormatStyle :=
  let escapes : Escapes := { bare := true, hex := true, strict := true, quote := true, cuts := true }
  { format := escapes
    argument := { escapes with zero := true }
    kept := .extended
    strict := true }

/-- What is wrong with an argument. -/
inductive NumberProblem where
  | notNumber (argument : Bytes)
  | notConverted (argument : Bytes)
  | outOfRange (argument : Bytes)
  /-- Bytes after a quoted one are ignored. -/
  | ignored (rest : Bytes)
  deriving DecidableEq, Repr, Inhabited

/-- Why a format is not filled in to its end. -/
inductive FormatEnd where
  | escape (ending : EscapeEnd)
  /-- A conversion that there is not. -/
  | invalid (conversion : Bytes)
  /-- A conversion without a letter. -/
  | missing
  | badWidth (argument : Bytes)
  | badPrecision (argument : Bytes)
  deriving DecidableEq, Repr, Inhabited

/-- A piece of a format that is filled in. -/
inductive FormatPiece where
  | text (bytes : Bytes)
  | problem (p : NumberProblem)
  deriving DecidableEq, Repr, Inhabited

/-- What a format makes of arguments. -/
structure Filling where
  pieces : List FormatPiece := []
  /-- The arguments left over. -/
  arguments : List Bytes
  /-- Some argument was used. -/
  used : Bool := false
  ending : Option FormatEnd := none

namespace Filling

/-- Puts pieces in front. -/
def prepend (pieces : List FormatPiece) (f : Filling) : Filling :=
  { f with pieces := pieces ++ f.pieces }

/-- The text alone. -/
def textOf (f : Filling) : Bytes :=
  f.pieces.flatMap fun piece => match piece with
    | .text bytes => bytes
    | .problem _ => []

/-- The problems alone. -/
def problems (f : Filling) : List NumberProblem :=
  f.pieces.filterMap fun piece => match piece with
    | .text _ => none
    | .problem p => some p

end Filling

namespace FormatStyle

variable (style : FormatStyle)

/-! ### Numbers as arguments -/

/-- The byte after a quotation mark, whose number an argument stands for, and what follows it. -/
def quotedByte? (argument : Bytes) : Option (UInt8 × Bytes) :=
  match argument with
  | 39 :: rest | 34 :: rest =>
    match rest with
    | c :: rest => some (c, rest)
    | [] => if style.strict then none else some (0, [])
  | _ => none

/-- What is wrong with an argument of which something is left over. -/
def leftover (argument rest : Bytes) : List FormatPiece :=
  if rest = [] then []
  else if rest.length = argument.length then [.problem (.notNumber argument)]
  else [.problem (.notConverted argument)]

/-- What is wrong with an argument. -/
def judge (argument rest : Bytes) (fits : Bool) : List FormatPiece :=
  let range : List FormatPiece := if fits then [] else [.problem (.outOfRange argument)]
  let left := leftover argument rest
  if style.strict then (if fits then left else range) else (if left = [] then range else left)

/-- What is wrong with an argument for which a quoted byte stands. -/
def judgeQuoted (rest : Bytes) : List FormatPiece :=
  if rest ≠ [] ∧ style.strict then [.problem (.ignored rest)] else []

/-- The whole number that an argument writes, cut off at the bounds. -/
def wholeArgument (signed : Bool) (argument : Bytes) : Int × List FormatPiece :=
  match style.quotedByte? argument with
  | some (c, rest) => (c.toNat, style.judgeQuoted rest)
  | none =>
    let (n, rest) := wholeInFront argument
    let (lo, hi) : Int × Int :=
      if signed then (-twoTo 63, twoTo 63 - 1) else (-(twoTo 64 - 1), twoTo 64 - 1)
    let fits := lo ≤ n && n ≤ hi
    let value := if fits then n else if n < lo ∧ signed then lo else hi
    (value, style.judge argument rest fits)

/-- The number with a point that an argument writes. -/
def realArgument (argument : Bytes) : Decimal.Value × List FormatPiece :=
  match style.quotedByte? argument with
  | some (c, rest) => (.finite false c.toNat, style.judgeQuoted rest)
  | none =>
    let (value, rest) := Decimal.read argument
    let kept := style.kept.keep value
    let fits := match value, kept with
      | .finite _ x, .finite _ y => x = 0 || y ≠ 0
      | .finite _ _, _ => false
      | _, _ => true
    (kept, style.judge argument rest fits)

/-! ### Conversions -/

/-- The bytes that may stand before the width of a conversion. -/
def flags : Bytes := utf8 (if style.strict then "-+ #0'I" else "-+ #0")

/-- A conversion with a flag. -/
def addFlag (c : Conversion) (flag : UInt8) : Conversion :=
  match Char.ofNat flag.toNat with
  | '-' => { c with left := true }
  | '0' => { c with zeros := true }
  | '+' => { c with plus := true }
  | ' ' => { c with space := true }
  | '#' => { c with alternative := true }
  | _ => c

/-- Whether a letter makes sense after some flags, perhaps with a precision. -/
def allows (flags : Bytes) (precise : Bool) (letter : UInt8) : Bool :=
  let isOne (letters : String) : Bool := (utf8 letters).contains letter
  if style.strict then
    isOne "aAcdeEfFgGiosuxX"
      && !(flags.contains 39 && isOne "aAceEosxX")
      && !(flags.contains 35 && isOne "cdisu")
      && !(flags.contains 48 && isOne "cs")
      && !(precise && letter = 99)
  else isOne "aAbcdeEfFgGiosuxX"

/-- A width or a precision. -/
structure Amount where
  value : Option Int
  rest : Bytes
  arguments : List Bytes
  pieces : List FormatPiece := []

/-- A number in front of a conversion; an asterisk takes it from the arguments. -/
def readAmount (bad : Bytes → FormatEnd) (s : Bytes) (arguments : List Bytes) :
    Except FormatEnd Amount :=
  match s, arguments with
  | 42 :: rest, [] => .ok { value := some 0, rest := rest, arguments := [] }
  | 42 :: rest, argument :: arguments =>
    let (n, pieces) := style.wholeArgument true argument
    if n < twoTo 31 ∨ style.strict = false then
      .ok { value := some n, rest := rest, arguments := arguments, pieces := pieces }
    else .error (bad argument)
  | s, arguments =>
    let (n, used) := digitsInFront 10 digit? s.length s
    .ok { value := if used = 0 then none else some n, rest := s.drop used, arguments := arguments }

/-- What stands in front of the letter of a conversion. -/
structure Front where
  conversion : Conversion
  flags : Bytes
  precise : Bool
  rest : Bytes
  arguments : List Bytes
  pieces : List FormatPiece

/-- Reads what stands in front of the letter of a conversion. -/
def readFront (s : Bytes) (arguments : List Bytes) : Except FormatEnd Front := do
  let flags := s.takeWhile style.flags.contains
  let c := flags.foldl addFlag {}
  let width ← style.readAmount .badWidth (s.drop flags.length) arguments
  let c := match width.value with
    | some n => { c with left := c.left || n < 0, width := n.natAbs }
    | none => c
  let isLength (c : UInt8) : Bool := style.strict && (utf8 "lLhjtz").contains c
  match width.rest with
  | 46 :: rest =>
    let precision ← style.readAmount .badPrecision rest width.arguments
    let c := match precision.value with
      | some n => { c with precision := n.toNat? }
      | none => { c with precision := some 0 }
    return { conversion := c, flags := flags, precise := true
             rest := precision.rest.dropWhile isLength
             arguments := precision.arguments
             pieces := width.pieces ++ precision.pieces }
  | rest =>
    return { conversion := c, flags := flags, precise := false
             rest := rest.dropWhile isLength
             arguments := width.arguments
             pieces := width.pieces }

/-- What a conversion makes of an argument. -/
def convert (c : Conversion) (letter : UInt8) (argument : Bytes) :
    List FormatPiece × Option FormatEnd :=
  match Char.ofNat letter.toNat with
  | 's' => ([.text (c.text argument)], none)
  | 'c' =>
    ([.text ({ c with precision := none }.text
      (if argument = [] then [nul] else argument.take 1))], none)
  | 'b' =>
    let (text, ending) := unescape style.argument argument
    ([.text (c.text text)], ending.map .escape)
  | 'd' | 'i' | 'o' | 'u' | 'x' | 'X' =>
    let (value, pieces) := style.wholeArgument (letter = 100 || letter = 105) argument
    (pieces ++ [.text (c.whole letter value)], none)
  | _ =>
    let (value, pieces) := style.realArgument argument
    (pieces ++ [.text (c.real style.kept letter value)], none)

/-- What a conversion without anything in front of its letter makes of the arguments, if it is one of
those that take nothing there. -/
def convertBare? (letter : UInt8) (arguments : List Bytes) :
    Option (List FormatPiece × Option FormatEnd) :=
  if style.strict = false then none
  else if letter = 98 then some (match arguments with
    | argument :: _ => style.convert {} letter argument
    | [] => ([], none))
  else if letter = 113 then some (match arguments with
    | argument :: _ => ([.text (Quoted.plainForShell argument)], none)
    | [] => ([], none))
  else none

/-- Goes through a format once.  The length of the format bounds the steps. -/
def fillOnce : Nat → Bytes → List Bytes → Filling
  | 0, _, arguments => { arguments := arguments }
  | _, [], arguments => { arguments := arguments }
  | n + 1, 37 :: 37 :: rest, arguments => (fillOnce n rest arguments).prepend [.text [37]]
  | n + 1, 37 :: s, arguments =>
    let goOn (result : List FormatPiece × Option FormatEnd) (rest : Bytes) (before : Bool)
        (arguments : List Bytes) : Filling :=
      let used := before || !arguments.isEmpty
      match result with
      | (pieces, some ending) =>
        { pieces := pieces, arguments := arguments.drop 1, used := used, ending := some ending }
      | (pieces, none) =>
        let f := fillOnce n rest (arguments.drop 1)
        { f.prepend pieces with used := f.used || used }
    match style.convertBare? (s.headD 0) arguments with
    | some result => goOn result (s.drop 1) false arguments
    | none =>
      match style.readFront s arguments with
      | .error ending => { arguments := arguments, ending := some ending }
      | .ok front =>
        let before := front.arguments.length < arguments.length
        let shown := (37 :: s).take (2 + s.length - front.rest.length)
        match front.rest with
        | [] =>
          { pieces := front.pieces
            arguments := front.arguments
            ending := some (if style.strict then .invalid shown else .missing) }
        | letter :: rest =>
          if style.allows front.flags front.precise letter then
            let (pieces, ending) :=
              style.convert front.conversion letter (front.arguments.headD [])
            goOn (front.pieces ++ pieces, ending) rest before front.arguments
          else
            { pieces := front.pieces
              arguments := front.arguments
              ending := some (.invalid shown) }
  | n + 1, c :: s, arguments =>
    let plain := (c :: s).takeWhile (· ≠ 37)
    let (text, ending) := unescape style.format plain
    match ending with
    | some ending =>
      { pieces := [.text text], arguments := arguments, ending := some (.escape ending) }
    | none => (fillOnce n ((c :: s).dropWhile (· ≠ 37)) arguments).prepend [.text text]

/-- Goes through a format until no argument is left; each round but the first uses one. -/
def fillRounds (form : Bytes) : Nat → List Bytes → Filling
  | 0, arguments => { arguments := arguments }
  | n + 1, arguments =>
    let f := style.fillOnce (form.length + 1) form arguments
    if f.arguments = [] ∨ f.used = false ∨ f.ending.isSome then f
    else { (fillRounds form n f.arguments).prepend f.pieces with used := true }

end FormatStyle

/-- A format filled in with arguments. -/
def formatted (style : FormatStyle) (form : Bytes) (arguments : List Bytes) : Filling :=
  style.fillRounds form (arguments.length + 1) arguments

/-! ### Arguments in a format -/

/-- The wording of a problem with an argument. -/
def NumberProblem.message : NumberProblem → Bytes
  | .notNumber argument => Quoted.escaped argument ++ utf8 ": expected a numeric value"
  | .notConverted argument => Quoted.escaped argument ++ utf8 ": value not completely converted"
  | .outOfRange argument => Quoted.escaped argument ++ utf8 ": Numerical result out of range"
  | .ignored rest =>
    utf8 "warning: " ++ rest
      ++ utf8 ": character(s) following character constant have been ignored"

/-- The wording of a format that is not filled in to its end, if that is a failure. -/
def FormatEnd.message? : FormatEnd → Option Bytes
  | .escape .cut => none
  | .escape .noDigits => some (utf8 "missing hexadecimal number in escape")
  | .escape (.badCharacter text) => some (utf8 "invalid universal character name " ++ text)
  | .invalid conversion => some (conversion ++ utf8 ": invalid conversion specification")
  | .missing => none
  | .badWidth argument => some (utf8 "invalid field width: " ++ Quoted.escaped argument)
  | .badPrecision argument => some (utf8 "invalid precision: " ++ Quoted.escaped argument)

/-- Writes arguments in a format. -/
def printf (r : Request) : Prog Nat := do
  let operands := if r.operands.head? = some [45, 45] then r.operands.drop 1 else r.operands
  match operands with
  | [] => r.missingOperand
  | form :: arguments =>
    let f := formatted printfStyle form arguments
    let _ ← forEach f.pieces fun piece => do
      match piece with
      | .text bytes => say bytes
      | .problem p => r.complain p.message
      return true
    match f.ending with
    | some ending =>
      match ending.message? with
      | none => return 0
      | some text =>
        r.complain text
        return 1
    | none =>
      match f.arguments with
      | excess :: _ =>
        r.complain (utf8 "warning: ignoring excess arguments, starting with "
          ++ Quoted.escaped excess)
      | [] => pure ()
      return codeOf (f.problems.all (· matches .ignored _))

end JobShell.Programs
