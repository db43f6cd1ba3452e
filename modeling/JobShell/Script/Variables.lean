/-
**Commands about variables.**

Main definitions:

* `JobShell.Script.declare`, `JobShell.Script.declareLocal`, `JobShell.Script.unset` — marking
  variables, and taking them away;
* `JobShell.Script.setAll`, `JobShell.Script.shift` — options and arguments of the script;
* `JobShell.Script.nextOption`, `JobShell.Script.getopts` — reading the script's own options;
* `JobShell.Script.makeAliases`, `JobShell.Script.forgetAliases` — aliases;
* `JobShell.Script.readLine`, `JobShell.Script.distribute` — reading a line into variables.
-/

import JobShell.Script.Complaint

set_option autoImplicit false

namespace JobShell.Script

/-- The marks that variables can have. -/
inductive VariableMark where
  | exported
  | fixed
  deriving DecidableEq, Repr

/-- The variables with a mark. -/
def marked (s : State) : VariableMark → List Bytes
  | .exported => s.exported
  | .fixed => s.fixed

/-- Marks a variable. -/
def addMark (m : VariableMark) (name : Bytes) (s : State) : State :=
  match m with
  | .exported => { s with exported := name :: s.exported }
  | .fixed => { s with fixed := name :: s.fixed }

/-- Sets and marks variables; without arguments, or with the option `p`, writes those that are
marked. -/
def declare (m : VariableMark) (name : Bytes) (words : List Bytes) : Eval Unit := do
  let r ← readOptions name "p" words
  if r.operands = [] ∨ r.has 'p' then
    let s ← get
    let lines := (marked s m).eraseDups.map fun v =>
      let value := match s.valueOf? v with
        | some value => 61 :: singleQuoted value
        | none => []
      name ++ 32 :: v ++ value ++ [newline]
    say name (lines.mergeSort Bytes.le).flatten
  else
    for argument in r.operands do
      let v := argument.takeWhile (· ≠ 61)
      if isName v = false then failIn name (v ++ utf8 ": bad variable name")
      if argument.contains 61 then assign v (argument.drop (v.length + 1))
      modify (addMark m v)
    setStatus 0

/-- Hides a variable until the function that is run ends. -/
def hide (v : Bytes) : Eval Unit :=
  modify fun s => { s with covered := s.covered.map (s.hidden v :: ·) }

/-- Gives variables a value, or none, until the function that is run ends. -/
def declareLocal (name : Bytes) (words : List Bytes) : Eval Unit := do
  if (← get).covered.isNone then failIn name (utf8 "not in a function")
  for word in words do
    let v := word.takeWhile (· ≠ 61)
    if isName v = false then failIn name (v ++ utf8 ": bad variable name")
    hide v
    if word.contains 61 then assign v (word.drop (v.length + 1))
  setStatus 0

/-- Forgets variables or functions. -/
def unset (name : Bytes) (words : List Bytes) : Eval Unit := do
  let r ← readOptions name "fv" words
  if r.has 'f' = false then
    for v in r.operands do
      if (← get).fixed.contains v then failIn name (v ++ utf8 ": is read only")
  modify fun s =>
    if r.has 'f' then
      { s with functions := s.functions.filter fun f => !r.operands.contains f.1 }
    else { s with values := s.values.filter fun b => !r.operands.contains b.1 }
  setStatus 0

/-- Writes the options by name, and whether they are set. -/
def sayOptions (name : Bytes) : Eval Unit := do
  let s ← get
  let lines := optionNames.map fun (text, letter) =>
    let column := utf8 text ++ List.replicate (16 - text.length) 32
    column ++ utf8 (if s.has letter then "on\n" else "off\n")
  say name (utf8 "Current option settings\n" ++ lines.flatten)

/-- Writes the commands that set the options as they are. -/
def sayOptionCommands (name : Bytes) : Eval Unit := do
  let s ← get
  say name (optionNames.flatMap fun (text, letter) =>
    utf8 ((if s.has letter then "set -o " else "set +o ") ++ text ++ "\n"))

/-- Replaces the arguments of the script. -/
def replaceArguments (arguments : List Bytes) : Eval Unit := do
  modify fun s => { s with arguments := arguments, optionPlace := {} }
  setStatus 0

/-- Sets options, and then the arguments if words are left. -/
def setAll (name : Bytes) : List Bytes → Eval Unit
  | [] => setStatus 0
  | word :: rest => do
    let replace := replaceArguments
    match word with
    | [45, 45] => replace rest
    | [45] =>
      modify fun s => (s.setOption false 'x').setOption false 'v'
      if rest = [] then setStatus 0 else replace rest
    | sign :: c :: letters =>
      if sign ≠ 45 ∧ sign ≠ 43 then replace (word :: rest)
      else if (c :: letters).getLast? = some 111 then
        match rest with
        | [] => if sign = 45 then sayOptions name else sayOptionCommands name
        | option :: rest =>
          match optionNames.find? fun o => utf8 o.1 = option with
          | some (_, letter) =>
            modify fun s => s.setOption (sign = 45) letter
            setAll name rest
          | none => failIn name (utf8 "Illegal option -o " ++ option)
      else
        for c in c :: letters do
          let letter := Char.ofNat c.toNat
          if (optionNames.any fun o => o.2 = letter) = false then
            failIn name (utf8 "Illegal option " ++ [sign, c])
          modify fun s => s.setOption (sign = 45) letter
        setAll name rest
    | _ => replace (word :: rest)

/-- Sets the arguments, or options; without words, writes the variables. -/
def set' (name : Bytes) (words : List Bytes) : Eval Unit := do
  if words = [] then
    let lines := (← get).values.map fun b => b.1 ++ 61 :: singleQuoted b.2 ++ [newline]
    say name (lines.mergeSort Bytes.le).flatten
  else setAll name words

/-- Drops arguments from the front. -/
def shift (name : Bytes) (arguments : List Bytes) : Eval Unit := do
  let n ← match arguments with
    | [] => pure 1
    | n :: _ => demandNumber name n
  let s ← get
  if s.arguments.length < n then failIn name (utf8 "can't shift that many")
  else replaceArguments (s.arguments.drop n)

/-! ### Options of the script -/

/-- The next of the letters of a script's options. -/
structure OptionRead where
  letter : UInt8
  value : Option Bytes := none
  /-- What is said about it. -/
  complaint : Bytes := []
  place : OptionPlace

/-- What is left of the word of options that has been begun, else of the next one, and the place
after that word; `none` at the end of the options. -/
def optionWord (words : List Bytes) (place : OptionPlace) : Except OptionPlace (Bytes × Nat) :=
  let begun : Bytes := match place.offset with
    | some offset => ((words[place.next - 2]?).getD []).drop offset
    | none => []
  if 1 < place.next ∧ begun ≠ [] then .ok (begun, place.next)
  else
    match words[place.next - 1]? with
    | some [45, 45] => .error { next := place.next + 1 }
    | some (45 :: c :: letters) => .ok (c :: letters, place.next + 1)
    | _ => .error { next := place.next }

/-- Whether a letter is an option, and has an argument. -/
def optionKind? (letters : Bytes) (c : UInt8) : Option Bool :=
  match letters with
  | [] => none
  | d :: rest =>
    if d = c then some (rest.head? = some 58)
    else
      match rest with
      | 58 :: rest => optionKind? rest c
      | rest => optionKind? rest c

/-- Reads the next option of some words. -/
def nextOption (letters : Bytes) (words : List Bytes) (place : OptionPlace) :
    Except OptionPlace OptionRead := do
  let (text, next) ← optionWord words place
  let c := text.headD 0
  let rest := text.drop 1
  let quiet := letters.head? = some 58
  let length := ((words[next - 2]?).getD []).length
  let goOn : OptionPlace := { next := next, offset := some (length - rest.length) }
  match optionKind? letters c, rest, words[next - 1]? with
  | none, _, _ =>
    return { letter := 63
             value := if quiet then some [c] else none
             complaint := if quiet then [] else utf8 "Illegal option -" ++ [c, newline]
             place := goOn }
  | some false, _, _ => return { letter := c, value := some [], place := goOn }
  | some true, [], none =>
    return { letter := if quiet then 58 else 63
             value := if quiet then some [c] else none
             complaint := if quiet then []
               else utf8 "No arg for -" ++ [c] ++ utf8 " option" ++ [newline]
             place := goOn }
  | some true, [], some argument =>
    return { letter := c, value := some argument, place := { next := next + 1 } }
  | some true, value, _ => return { letter := c, value := some value, place := { next := next } }

/-- Reads the next of the script's own options into a variable. -/
def getopts (name : Bytes) (words : List Bytes) : Eval Unit := do
  match words with
  | letters :: v :: given =>
    let s ← get
    let words := if given = [] then s.arguments else given
    let place : OptionPlace := if words.length + 1 < s.optionPlace.next then {} else s.optionPlace
    let (letter, place, ended) ← match nextOption letters words place with
      | .error place => pure (63, place, true)
      | .ok r => do
        if r.complaint ≠ [] then mention r.complaint
        match r.value with
        | some value => assign (utf8 "OPTARG") value
        | none => modify fun s => { s with values := s.values.filter (·.1 ≠ utf8 "OPTARG") }
        pure (r.letter, r.place, false)
    assign (utf8 "OPTIND") (Bytes.ofNat place.next)
    modify fun s => { s with optionPlace := {} }
    if isName v = false then failIn name (v ++ utf8 ": bad variable name")
    assign v [letter]
    modify fun s => { s with optionPlace := place }
    setStatus (Programs.codeOf (!ended))
  | _ => failIn name (utf8 "Usage: getopts optstring var [arg...]")

/-! ### Aliases -/

/-- An alias as a script can read it back. -/
def aliasLine (a : Bytes × Bytes) : Bytes := a.1 ++ 61 :: singleQuoted a.2 ++ [newline]

/-- Makes aliases, or writes them. -/
def makeAliases (name : Bytes) (words : List Bytes) : Eval Unit := do
  setStatus 0
  if words = [] then
    say name (((← get).aliases.map aliasLine).mergeSort Bytes.le).flatten
  for word in words do
    let own := word.takeWhile (· ≠ 61)
    if own ≠ [] ∧ word.contains 61 then
      modify fun s =>
        { s with aliases := (own, word.drop (own.length + 1)) :: s.aliases.filter (·.1 ≠ own) }
    else
      match (← get).aliases.lookup word with
      | some value => say name (aliasLine (word, value))
      | none =>
        mention (utf8 "alias: " ++ word ++ utf8 " not found\n")
        setStatus 1

/-- Forgets aliases. -/
def forgetAliases (name : Bytes) (words : List Bytes) : Eval Unit := do
  let r ← readOptions name "a" words
  setStatus 0
  if r.has 'a' then modify fun s => { s with aliases := [] }
  else
    for word in r.operands do
      if ((← get).aliases.lookup word).isNone then
        mention (utf8 "unalias: " ++ word ++ utf8 " not found\n")
        setStatus 1
      modify fun s => { s with aliases := s.aliases.filter (·.1 ≠ word) }

/-! ### Reading a line -/

/-- A line of the input, one byte at a time, so that nothing is taken that belongs to others; also
says whether the line was ended.  A backslash quotes the next byte unless `raw`. -/
def readLine (raw : Bool) : Eval (List Glyph × Bool) :=
  perform <| Prog.repeatWhile
    (fun (state : List Glyph × Bool) => do
      let (gs, escaped) := state
      match ← Prog.ask (.read 0 1) with
      | .ok [c] =>
        if escaped then
          return .inl (if c = newline then gs else .quoted c :: gs, false)
        else if c = newline then return .inr (gs.reverse, true)
        else if c = 92 ∧ raw = false then return .inl (gs, true)
        else return .inl (.expanded c :: gs, false)
      | _ => return .inr (gs.reverse, false))
    (fun state => (state.1.reverse, false)) ([], false)

/-- Distributes a line over variables: each gets a field, and the last one all that is left. -/
def distribute (separators : Bytes) : List Bytes → List Glyph → List (Bytes × Bytes)
  | [], _ => []
  | name :: names, gs =>
    let isSeparator (g : Glyph) : Bool := match g with
      | .expanded c => separators.contains c
      | _ => false
    let isBlank (g : Glyph) : Bool := isSeparator g &&
      (g = .expanded 32 || g = .expanded 9 || g = .expanded newline)
    let gs := gs.dropWhile isBlank
    if names = [] then [(name, textOf (gs.reverse.dropWhile isBlank).reverse)]
    else
      let field := gs.takeWhile fun g => !isSeparator g
      let rest := (gs.drop field.length).dropWhile isBlank
      let rest := match rest with
        | g :: more => if isSeparator g ∧ isBlank g = false then more else rest
        | [] => []
      (name, textOf field) :: distribute separators names rest

/-- Reads a line into variables. -/
def read (name : Bytes) (words : List Bytes) : Eval Unit := do
  let r ← readOptions name "p:r" words
  match r.operands, r.operands.find? fun v => isName v = false with
  | [], _ => failIn name (utf8 "arg count")
  | _, some bad => failIn name (bad ++ utf8 ": bad variable name")
  | names, none =>
    let (gs, ended) ← readLine (r.has 'r')
    for (v, value) in distribute (← get).separators names gs do
      assign v value
    setStatus (Programs.codeOf ended)

end JobShell.Script
