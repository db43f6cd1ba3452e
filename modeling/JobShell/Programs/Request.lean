/-
**What a program is asked.**

The words of a program are options and operands.  An option has a letter or a name, or both.  Letters
that have no arguments can share a word; an argument is the rest of the word or the next word.  A
name stands after two dashes, and may be cut short where that leaves no doubt; its argument stands
after an equals sign or is the next word.  Words after `--` are operands, and so is every other word
that does not begin with a dash.

Main definitions:

* `JobShell.Programs.OptionSet` — the options that a program has;
* `JobShell.Programs.Request` — the options and operands that it is given;
* `JobShell.Programs.Request.read` — reading words, given the options that there are;
* `JobShell.Programs.Refusal`, `JobShell.Programs.Objection` — why words are refused, and why they
  make no sense together;
* `JobShell.Programs.chooseWord` — arguments that are one of a few words;
* `JobShell.Programs.Request.refuse` — the complaint about words that make no sense together.
-/

import JobShell.Programs.Basic
import JobShell.Text.Quoted

set_option autoImplicit false

namespace JobShell.Programs

/-! ### The options of a program -/

/-- What an option is known by: its letter, or its name if it has no letter. -/
inductive OptionKey where
  | letter (c : Char)
  | word (name : String)
  deriving DecidableEq, Repr, Inhabited

/-- Whether an option has an argument. -/
inductive Demand where
  | nothing
  | argument
  /-- There may be an argument, in the same word. -/
  | perhaps
  deriving DecidableEq, Repr, Inhabited

/-- The name of an option. -/
structure LongName where
  name : String
  key : OptionKey
  demand : Demand
  deriving DecidableEq, Repr, Inhabited

/-- The options that a program has. -/
structure OptionSet where
  letters : List (Char × Demand) := []
  names : List LongName := []
  deriving DecidableEq, Repr, Inhabited

/-- The letters of options: one colon follows those that have an argument, two those that may have
one. -/
def optionLetters : List Char → List (Char × Demand)
  | [] => []
  | c :: ':' :: ':' :: rest => (c, .perhaps) :: optionLetters rest
  | c :: ':' :: rest => (c, .argument) :: optionLetters rest
  | c :: rest => (c, .nothing) :: optionLetters rest

/-- A name as it is listed: with colons like a letter, and after an equals sign with the letter of
the same meaning. -/
def longName (listed : String) : LongName :=
  let chars := listed.toList
  let front := chars.takeWhile fun c => c ≠ '=' && c ≠ ':'
  let colons := (chars.filter (· = ':')).length
  let name := String.ofList front
  { name := name
    key := match (chars.dropWhile (· ≠ '=')).drop 1 with
      | c :: _ => .letter c
      | [] => .word name
    demand := if colons = 0 then .nothing else if colons = 1 then .argument else .perhaps }

/-- The options with the given letters and names.  Every program has two more names. -/
def OptionSet.ofText (letters : String) (names : List String) : OptionSet :=
  { letters := optionLetters letters.toList
    names := (names ++ ["help", "version"]).map longName }

/-! ### Refusals -/

/-- Why words are refused. -/
inductive Refusal where
  | unknown (letter : UInt8)
  | unknownWord (word : Bytes)
  | ambiguous (word : Bytes) (names : List String)
  | withoutArgument (letter : UInt8)
  | wordWithoutArgument (name : String)
  | excessArgument (name : String)
  deriving DecidableEq, Repr, Inhabited

namespace Refusal

/-- A letter or a word as it stands in a refusal. -/
def shown (word : Bytes) : Bytes := Quoted.mark :: word ++ [Quoted.mark]

/-- A name as it stands in a refusal. -/
def shownName (name : String) : Bytes := shown (utf8 ("--" ++ name))

/-- The wording of a refusal. -/
def message : Refusal → Bytes
  | .unknown letter => utf8 "invalid option -- " ++ shown [letter]
  | .unknownWord word => utf8 "unrecognized option " ++ shown word
  | .ambiguous word names =>
    utf8 "option " ++ shown word ++ utf8 " is ambiguous; possibilities:"
      ++ names.flatMap fun name => 32 :: shownName name
  | .withoutArgument letter => utf8 "option requires an argument -- " ++ shown [letter]
  | .wordWithoutArgument name =>
    utf8 "option " ++ shownName name ++ utf8 " requires an argument"
  | .excessArgument name =>
    utf8 "option " ++ shownName name ++ utf8 " doesn't allow an argument"

end Refusal

/-- Why a request makes no sense. -/
inductive Objection where
  | plain (text : Bytes)
  /-- The complaint points to the help. -/
  | misuse (text : Bytes)
  /-- An argument is none of the words that it may be. -/
  | wrongWord (text : Bytes)
  deriving DecidableEq, Repr, Inhabited

/-- Words in groups of the same meaning, as they are listed. -/
def listWords {α : Type} [DecidableEq α] : Option α → List (String × α) → Bytes
  | _, [] => []
  | before, (word, value) :: rest =>
    utf8 (if before = some value then ", " else "\n  - ") ++ Refusal.shown (utf8 word)
      ++ listWords (some value) rest

/-- What a text stands for as the argument of an option: the meaning of a word that it is, or of all
that it begins. -/
def chooseWord {α : Type} [DecidableEq α] (option : String) (words : List (String × α))
    (text : Bytes) : Except Objection α :=
  let refuse (how : String) : Except Objection α :=
    .error (.wrongWord (utf8 (how ++ " argument ") ++ Quoted.escaped text ++ utf8 " for "
      ++ Refusal.shown (utf8 option) ++ utf8 "\nValid arguments are:" ++ listWords none words))
  match words.find? fun w => utf8 w.1 = text with
  | some (_, value) => .ok value
  | none =>
    match words.filter fun w => text.isPrefixOf (utf8 w.1) with
    | [] => refuse "invalid"
    | (_, value) :: rest => if rest.all (·.2 = value) then .ok value else refuse "ambiguous"

/-! ### Reading words -/

/-- Options that are given, each with its argument, which is empty if it has none. -/
abbrev Given := List (OptionKey × Bytes)

/-- Reads the letters of one word: its options, and the option whose argument is the next word. -/
def readLetters (letters : List (Char × Demand)) :
    Bytes → Except Refusal (Given × Option UInt8)
  | [] => .ok ([], none)
  | c :: rest =>
    let letter := Char.ofNat c.toNat
    match letters.lookup letter with
    | none => .error (.unknown c)
    | some .argument =>
      .ok (if rest = [] then ([], some c) else ([(.letter letter, rest)], none))
    | some .perhaps => .ok ([(.letter letter, rest)], none)
    | some .nothing => do
      let (given, pending) ← readLetters letters rest
      return ((.letter letter, []) :: given, pending)

/-- The option of a name that may be cut short. -/
def findName (names : List LongName) (word name : Bytes) : Except Refusal LongName :=
  match names.find? fun l => utf8 l.name = name with
  | some l => .ok l
  | none =>
    match names.filter fun l => name.isPrefixOf (utf8 l.name) with
    | [] => .error (.unknownWord (45 :: 45 :: word))
    | [l] => .ok l
    | l :: more =>
      if more.all fun k => k.key = l.key ∧ k.demand = l.demand then .ok l
      else .error (.ambiguous (45 :: 45 :: word) ((l :: more).map (·.name)))

/-- Reads an option by its name, and the words after it. -/
def readName (names : List LongName) (word : Bytes) (rest : List Bytes) :
    Except Refusal ((OptionKey × Bytes) × List Bytes) := do
  let name := word.takeWhile (· ≠ 61)
  let l ← findName names word name
  match l.demand, word.contains 61, rest with
  | .nothing, true, _ => throw (.excessArgument l.name)
  | .argument, false, [] => throw (.wordWithoutArgument l.name)
  | .argument, false, argument :: rest => return ((l.key, argument), rest)
  | _, _, _ => return ((l.key, word.drop (name.length + 1)), rest)

/-- Reads words.  If `strict`, all words after the first operand are operands.  The number of words
bounds the steps. -/
def readFor (set : OptionSet) (strict : Bool) :
    Nat → List Bytes → Except Refusal (Given × List Bytes)
  | 0, _ | _, [] => .ok ([], [])
  | n + 1, word :: rest =>
    match word with
    | [45, 45] => .ok ([], rest)
    | 45 :: 45 :: word => do
      let (option, rest) ← readName set.names word rest
      let (others, operands) ← readFor set strict n rest
      return (option :: others, operands)
    | 45 :: c :: more =>
      match readLetters set.letters (c :: more), rest with
      | .error refusal, _ => .error refusal
      | .ok (given, none), rest => do
        let (others, operands) ← readFor set strict n rest
        return (given ++ others, operands)
      | .ok (_, some c), [] => .error (.withoutArgument c)
      | .ok (given, some c), argument :: rest => do
        let (others, operands) ← readFor set strict n rest
        return (given ++ (.letter (Char.ofNat c.toNat), argument) :: others, operands)
    | _ =>
      if strict then .ok ([], word :: rest)
      else do
        let (given, operands) ← readFor set strict n rest
        return (given, word :: operands)

/-- Reads words. -/
def readWords (set : OptionSet) (strict : Bool) (words : List Bytes) :
    Except Refusal (Given × List Bytes) :=
  readFor set strict words.length words

/-- What a program is asked. -/
structure Request where
  /-- The name under which the program was started. -/
  name : Bytes
  options : Given := []
  operands : List Bytes := []
  environment : Environment := []

namespace Request

/-- Reads the words of a program that has the given options. -/
def read (set : OptionSet) (strict : Bool) (words : List Bytes) (environment : Environment) :
    Except Refusal Request := do
  let (given, operands) ← readWords set strict (words.drop 1)
  return { name := ownName words, options := given, operands := operands
           environment := environment }

/-- The request of a program that reads its words on its own. -/
def ofWords (words : List Bytes) (environment : Environment) : Request :=
  { name := ownName words, operands := words.drop 1, environment := environment }

/-! ### Looking at a request -/

variable (r : Request)

/-- The arguments of an option, in order. -/
def argumentsOf (key : OptionKey) : List Bytes := (r.options.filter fun o => o.1 = key).map (·.2)

/-- Whether an option is given. -/
def has (letter : Char) : Bool := r.options.any fun o => o.1 = .letter letter

/-- Whether an option without a letter is given. -/
def hasWord (name : String) : Bool := r.options.any fun o => o.1 = .word name

/-- The arguments of an option, in order. -/
def arguments (letter : Char) : List Bytes := r.argumentsOf (.letter letter)

/-- The last argument of an option. -/
def argument? (letter : Char) : Option Bytes := (r.arguments letter).getLast?

/-- The last argument of an option without a letter. -/
def wordArgument? (name : String) : Option Bytes := (r.argumentsOf (.word name)).getLast?

/-- The letters of the options, in order. -/
def letters : List Char :=
  r.options.filterMap fun o => match o.1 with
    | .letter c => some c
    | .word _ => none

/-- The last of some letters that is given. -/
def lastOf (letters : String) : Option Char :=
  (r.letters.filter fun c => letters.toList.contains c).getLast?

/-- The operands, or the input if there are none. -/
def inputs : List Bytes := orInput r.operands

/-! ### Complaints -/

/-- Writes a diagnostic. -/
def complain (text : Bytes) : Prog Unit := Programs.complain r.name text

/-- Writes a diagnostic about a named thing and an error. -/
def complainOf (what : Bytes) (e : Errno) : Prog Unit := Programs.complainOf r.name what e

/-- Writes a diagnostic about a file and an error. -/
def blame (path : Bytes) (e : Errno) : Prog Unit := r.complainOf (Quoted.plainForShell path) e

/-- Points to the help of the program. -/
def tryHelp : Prog Unit := do
  let _ ← emit 2 (utf8 "Try '" ++ r.name ++ utf8 " --help' for more information.\n")

/-- Complains about words that make no sense together. -/
def refuse (text : Bytes) : Prog Nat := do
  r.complain text
  r.tryHelp
  return 1

/-- The complaint about too few operands. -/
def missingOperand : Prog Nat := r.refuse (utf8 "missing operand")

/-- The complaint about an operand that has no companion. -/
def missingAfter (operand : Bytes) : Prog Nat :=
  r.refuse (utf8 "missing operand after " ++ Quoted.escaped operand)

/-- The complaint about too many operands. -/
def extraOperand (operand : Bytes) : Prog Nat :=
  r.refuse (utf8 "extra operand " ++ Quoted.escaped operand)

/-- Ends a program that cannot do what it is asked, with an exit code for most objections. -/
def object (code : Nat) : Objection → Prog Nat
  | .plain text => do
    r.complain text
    return code
  | .misuse text => do
    let _ ← r.refuse text
    return code
  | .wrongWord text => r.refuse text

/-- Runs a function on each operand, one after another on one state, and says whether all went
well. -/
def forEachInput {s : Type} (body : s → Nat → Prog (Except Errno s)) (state : s) :
    Prog (s × Bool) :=
  r.inputs.foldlM (fun (state, ok) operand => do
    match ← withOperand operand (body state) with
    | .ok (.ok state) => return (state, ok)
    | .ok (.error errno) | .error errno =>
      r.blame operand errno
      return (state, false)) (state, true)

/-- Hands the lines of all operands to a function, each operand by itself, and says whether all could
be read. -/
def forEachLine {s : Type} (mark : UInt8) (body : s → List Bytes → Prog s) (state : s) :
    Prog (s × Bool) :=
  r.forEachInput (fun state fd => forEachLines fd mark body state) state

/-- Runs a function on the content of each operand. -/
def forEachText (body : Bytes → Prog Unit) : Prog Nat := do
  let ok ← forEach r.inputs fun operand => do
    match ← readOperand operand with
    | .ok text =>
      body text
      return true
    | .error errno =>
      r.blame operand errno
      return false
  return codeOf ok

end Request

end JobShell.Programs
