/-
**Running a script.**

A command runs in the process of the script if it can, and else in a child.  The last command of a
script that was given as an argument takes the place of the script.  Whatever recursion there is
in a script is bounded by a depth that no script here reaches.

A simple command is run in this order: its words are expanded, its redirections are applied, its
assignments are made, it is shown if the script is told so, and then it is run.

Main definitions:

* `JobShell.Script.assignAll` — the assignments of a command;
* `JobShell.Script.runTree`, `JobShell.Script.runText` — running commands and texts;
* `JobShell.Script.runSource` — running a script as it is read.
-/

import JobShell.Script.Lookup

set_option autoImplicit false

namespace JobShell.Script

/-! ### Assignments -/

/-- How long an assignment lasts. -/
inductive Lifetime where
  /-- As long as the command, which gets the variable. -/
  | command
  | forGood
  /-- For good, and programs get the variable. -/
  | exported
  deriving DecidableEq, Repr

/-- Makes assignments in order; each can use those before it.  Gives what was assigned and, the last
one first, what the variables were. -/
def assignAll (run : Nat → Bytes → Eval Bytes) (lifetime : Lifetime) :
    List Word → Eval (List (Bytes × Bytes) × List Hidden)
  | [] => return ([], [])
  | word :: rest => do
    let (name, text) := assignmentOf word
    let value ← expandValue run text
    let before := (← get).hidden name
    assign name value
    if lifetime ≠ .forGood then modify fun s => { s with exported := name :: s.exported }
    let (assigned, hidden) ← assignAll run lifetime rest
    return ((name, value) :: assigned, hidden ++ [before])

/-- Makes the assignments of a command, runs it with them, and undoes them if they do not last. -/
def withAssignments (run : Nat → Bytes → Eval Bytes) (lifetime : Lifetime) (words : List Word)
    (body : List (Bytes × Bytes) → Eval Unit) : Eval Unit := do
  let (assigned, hidden) ← assignAll run lifetime words
  let result ← attempt (body assigned)
  if lifetime = .command then modify fun s => hidden.foldl State.restore s
  release result

/-! ### Commands -/

/-- How deep scripts may be nested. -/
def maxDepth : Nat := 100000

/-- How often a loop runs at most. -/
def maxRounds : Nat := 10000000

/-- Whether only newlines are left of a script. -/
def isOver (tokens : List Lexeme) : Bool :=
  tokens.all fun l => l.token == .newline || l.token == .finished

/-- The lifetime of the assignments of a command. -/
def lifetimeOf (name : Option Bytes) (arguments : List Bytes) : Lifetime :=
  match name with
  | none => .forGood
  | some name =>
    if name = utf8 "exec" then (if arguments = [] then .forGood else .exported)
    else if isSpecial name then .forGood else .command

/-- Whether the arguments of a command are those of a declaration, given its words. -/
def isDeclared : List Bytes → Bool
  | [] => false
  | name :: rest => isDeclaration name || (name = utf8 "command" && isDeclared rest)

/-- The name of the program that a stage of a pipeline runs, if that is written plainly. -/
def plainName? : Tree → Option Bytes
  | .simple _ _ (word :: _) _ => if isName word.text then some word.text else none
  | _ => none

/-- Remembers where the program of a stage is before the stage is started. -/
def locateAhead (stage : Tree) : Eval Unit := do
  let s ← get
  match plainName? stage with
  | none => return ()
  | some name =>
    if (s.functions.lookup name).isNone ∧ isBuiltin name = false
        ∧ (s.located.lookup name).isNone then
      match ← findProgram name with
      | .ok path => set { s with located := s.located ++ [(name, path)] }
      | .error _ => return ()

/-- Prepares a child whose input is not that of the script: interrupts are ignored, and there is
nothing to read. -/
def detach (first : Bool) : Eval Unit := do
  let _ ← ask (.dispose Signal.interrupt .ignore)
  let _ ← ask (.dispose 3 .ignore)
  if first then
    match ← ask (.openPath (utf8 "/dev/null") { read := true } 0) with
    | .ok fd => place 0 (some fd)
    | .error _ => return ()

/-- Complains about a text that is no script. -/
def refuseText (mistake : Mistake) : Eval Unit := do
  modify fun s => { s with line := mistake.line }
  fail (utf8 mistake.error.message)

/-- Shows the text of a script between two places if the script is told so. -/
def showText (start next : Cursor) : Eval Unit := do
  if (← get).has 'v' then
    mention (start.text.take (start.text.length - next.text.length))

mutual

/-- Runs a command.  `last` says that nothing else is to be done in this process. -/
def runTree : Nat → Bool → Tree → Eval Unit
  | 0, _, _ => fail (utf8 "Maximum recursion depth reached")
  | n + 1, last, tree => do
    if (← get).has 'n' then return ()
    match tree with
    | .nothing => setStatus 0
    | .simple line assignments words rs =>
      modify fun s => { s with line := line }
      runSimple n last assignments words rs
      runTraps n
      checkStatus
    | .pipeline negated stages =>
      match stages with
      | [only] => if negated then asking (runTree n false only) else runTree n last only
      | _ =>
        let job ← claimJob
        runStages n job false true none stages
        awaitJob job
        runTraps n
      if negated then
        modify fun s => { s with status := if s.status = 0 then 1 else 0 }
      else checkStatus
    | .both a b =>
      asking (runTree n false a)
      if (← get).status = 0 then runTree n last b
    | .either a b =>
      asking (runTree n false a)
      if (← get).status ≠ 0 then runTree n last b
    | .sequence a b =>
      runTree n false a
      runTree n last b
    | .background (.pipeline false (first :: second :: others)) =>
      let job ← claimJob
      runStages n job true true none (first :: second :: others)
      setStatus 0
    | .background a =>
      let job ← claimJob
      let pid ← inChild (runAction n) (some job) do
        detach true
        modify fun s => { s with asked := false }
        runTree n true a
      modify fun s => { s with lastBackground := some pid }
      setStatus 0
    | .subshell line body =>
      modify fun s => { s with line := line }
      let alone := last && (← get).traps.isEmpty
      if alone then
        runTree n true body
        throw .exits
      else
        let job ← claimJob
        let _ ← inChild (runAction n) (some job) (runTree n true body)
        awaitJob job
        runTraps n
        checkStatus
    | .redirected line body rs =>
      modify fun s => { s with line := line }
      let _ ← withRedirects (substitute n) .meanwhile rs fun _ => runTree n false body
      checkStatus
    | .choice condition yes no =>
      asking (runTree n false condition)
      runTree n last (if (← get).status = 0 then yes else no)
    | .loop untilTrue condition body =>
      runRounds untilTrue (runTree n false condition) (runTree n false body) maxRounds 0
    | .each line name words body =>
      modify fun s => { s with line := line }
      let values ← match words with
        | some words => expandFields (substitute n) false words
        | none => pure (← get).arguments
      setStatus 0
      runEach n name body values
    | .select line subject arms =>
      modify fun s => { s with line := line }
      let text ← expandText (substitute n) subject
      setStatus 0
      runArms n last text arms
    | .function name body =>
      modify fun s =>
        { s with functions := (name, body) :: s.functions.filter (·.1 ≠ name), status := 0 }

/-- Runs the body of a loop for each value. -/
def runEach : Nat → Bytes → Tree → List Bytes → Eval Unit
  | 0, _, _, _ => return ()
  | _, _, _, [] => return ()
  | n + 1, name, body, value :: rest => do
    assign name value
    if ← endRound (← inLoop (runTree n false body)) then runEach n name body rest

/-- Runs the first arm with a pattern that a text fits. -/
def runArms : Nat → Bool → Bytes → List (List Word × Tree) → Eval Unit
  | 0, _, _, _ => return ()
  | _, _, _, [] => return ()
  | n + 1, last, text, (patterns, body) :: rest => do
    if ← fitsAny n text patterns then runTree n last body
    else runArms n last text rest

/-- Whether a text fits one of some patterns; those after it are not expanded. -/
def fitsAny : Nat → Bytes → List Word → Eval Bool
  | 0, _, _ => return false
  | _, _, [] => return false
  | n + 1, text, pattern :: rest => do
    let glob ← expandPattern (substitute n) pattern
    if glob.accepts text then return true else fitsAny n text rest

/-- Starts the stages of a pipeline as processes of a job.  A stage reads the descriptor that it is
given, or, if it is the first one, what the script reads. -/
def runStages : Nat → Nat → Bool → Bool → Option Nat → List Tree → Eval Unit
  | 0, _, _, _, _, _ => return ()
  | _, _, _, _, _, [] => return ()
  | n + 1, job, background, first, input, stage :: rest => do
    let enter : Eval Unit := do
      if background then detach first
      if let some fd := input then place 0 (some fd)
    let leaveInput : Eval Unit := do
      if let some fd := input then
        let _ ← ask (.close fd)
    let noteLast (pid : Int) : Eval Unit := do
      if background then modify fun s => { s with lastBackground := some pid }
    locateAhead stage
    if rest.isEmpty then
      let pid ← inChild (runAction n) (some job) do
        enter
        runTree n true stage
      noteLast pid
      leaveInput
    else
      match ← ask .pipe with
      | .error _ => fail (utf8 "Pipe call failed")
      | .ok (reader, writer) =>
        let pid ← inChild (runAction n) (some job) do
          let _ ← ask (.close reader)
          enter
          place 1 (some writer)
          runTree n true stage
        noteLast pid
        leaveInput
        let _ ← ask (.close writer)
        runStages n job background false (some reader) rest

/-- Runs a simple command. -/
def runSimple : Nat → Bool → List Word → List Word → List Redirect → Eval Unit
  | 0, _, _, _, _ => return ()
  | n + 1, last, assignments, words, rs => do
    modify fun s => { s with substituted := none }
    let fields ← expandWords n [] words
    let name := fields.head?
    let arguments := fields.drop 1
    let functions := (← get).functions
    let body := name.bind fun name => functions.lookup name
    let own? := match body with
      | some _ => none
      | none => name.bind fun name => command? n last name arguments
    let lifetime := if body.isSome then .command else lifetimeOf name arguments
    let duration := if name = some (utf8 "exec") ∧ body.isNone then .forGood else .meanwhile
    let run (diagnostics : Nat) : Eval Unit :=
      withAssignments (substitute n) lifetime assignments fun assigned => do
        showCommand n diagnostics assigned fields
        match name, body, own? with
        | none, _, _ => setStatus ((← get).substituted.getD 0)
        | some _, some body, _ => runFunction n body arguments
        | some name, none, some own =>
          if isSpecial name then own else asOrdinary own
          reapEnded
        | some name, none, none => runProgram n last (name :: arguments)
    let ok ← withRedirects (substitute n) duration rs run
    if ok = false ∧ body.isNone ∧ (name.map isSpecial).getD false then throw .exits

/-- The words of a command as arguments, after those that are known. -/
def expandWords : Nat → List Bytes → List Word → Eval (List Bytes)
  | 0, done, _ => return done
  | _, done, [] => return done
  | n + 1, done, word :: rest => do
    let fields ← expandFields (substitute n) (isDeclared done) [word]
    expandWords n (done ++ fields) rest

/-- Shows the assignments and words of a command if the script is told so. -/
def showCommand : Nat → Nat → List (Bytes × Bytes) → List Bytes → Eval Unit
  | 0, _, _, _ => return ()
  | n + 1, diagnostics, assigned, words => do
    let s ← get
    if s.has 'x' then
      set (s.setOption false 'x')
      let start ← expandHere (substitute n) ⟨(s.valueOf? (utf8 "PS4")).getD [], s.line⟩
      modify fun s => s.setOption true 'x'
      let bindings := assigned.map fun (name, value) => name ++ 61 :: value
      mentionTo diagnostics (start ++ Bytes.join 32 (bindings ++ words) ++ [newline])

/-- Runs a program, in a child unless nothing else is to be done. -/
def runProgram : Nat → Bool → List Bytes → Eval Unit
  | 0, _, _ => return ()
  | n + 1, last, words => do
    if ← locateProgram (words.headD []) then
      let alone := last && (← get).traps.isEmpty
      if alone then execProgram words
      else
        let job ← claimJob
        let _ ← inChild (runAction n) (some job) (execProgram words)
        awaitJob job

/-- The command of a name that the script runs itself. -/
def command? : Nat → Bool → Bytes → List Bytes → Option (Eval Unit)
  | 0, _, _, _ => none
  | n + 1, last, name, arguments =>
    if name = utf8 "eval" then
      some do
        setStatus 0
        withCommand name (runText n false 1 (Bytes.join 32 arguments))
    else if name = utf8 "." then some (runFile n arguments)
    else if name = utf8 "exec" then
      some (if arguments = [] then setStatus 0 else withCommand name (execProgram arguments))
    else if name = utf8 "command" then some (runCommand n last name arguments)
    else if name = utf8 "type" then some (tellAll name arguments)
    else if name = utf8 "hash" then some (hash name arguments)
    else (builtin? name).map fun body => body arguments

/-- Runs a command that is no function, or tells what it is. -/
def runCommand : Nat → Bool → Bytes → List Bytes → Eval Unit
  | 0, _, _, _ => return ()
  | n + 1, last, command, arguments => do
    let r ← readOptions command "pvV" arguments
    setStatus 0
    match r.operands with
    | [] => return ()
    | name :: arguments =>
      if r.has 'V' then tell command name
      else if r.has 'v' then locate command name
      else
        match command? n last name arguments with
        | some body => asOrdinary body
        | none => runProgram n last (name :: arguments)

/-- Runs the script in a file as part of this one. -/
def runFile : Nat → List Bytes → Eval Unit
  | 0, _ => return ()
  | n + 1, arguments => do
    match arguments with
    | [] => setStatus 0
    | name :: _ =>
      match ← findFile name with
      | none => withCommand (utf8 ".") (fail (name ++ utf8 ": not found"))
      | some path =>
        match ← openSource path with
        | .ok fd =>
          setStatus 0
          let result ← attempt (withCommand path (runSource n fd ⟨[], 1, 0⟩ []))
          letGo fd
          match result with
          | .error .returns | .ok () => pure ()
          | .error way => throw way
        | .error errno =>
          withCommand (utf8 ".")
            (fail (utf8 "cannot open " ++ path ++ utf8 (": " ++ openReason false errno)))

/-- Runs the body of a function with arguments of its own. -/
def runFunction : Nat → Tree → List Bytes → Eval Unit
  | 0, _, _ => return ()
  | n + 1, body, arguments => do
    let before ← get
    modify fun s =>
      { s with arguments := arguments, loops := 0, covered := some [], optionPlace := {} }
    let result ← attempt (runTree n false body)
    modify fun s =>
      (s.covered.getD []).foldl State.restore
        { s with
          arguments := before.arguments, loops := before.loops, covered := before.covered
          optionPlace := before.optionPlace }
    match result with
    | .ok () | .error .returns => pure ()
    | .error way => throw way

/-- What a script writes that stands in the middle of a word and begins on a line. -/
def substitute : Nat → Nat → Bytes → Eval Bytes
  | 0, _, _ => return []
  | n + 1, line, text => do
    match ← ask .pipe with
    | .error _ => fail (utf8 "Pipe call failed")
    | .ok (reader, writer) =>
      let job ← claimJob
      let _ ← inChild (runAction n) (some job) do
        let _ ← ask (.close reader)
        place 1 (some writer)
        runText n true line text
      let _ ← ask (.close writer)
      let out ← perform (Programs.readAll reader)
      let _ ← ask (.close reader)
      let before := (← get).status
      awaitJob job
      modify fun s => { s with substituted := some s.status, status := before }
      match out with
      | .ok bytes => return bytes.filter (· ≠ nul)
      | .error _ => return []

/-- Runs the action of a trap. -/
def runAction : Nat → Bytes → Eval Unit
  | 0, _ => return ()
  | n + 1, text => runText n false 1 text

/-- Runs the actions of the signals that have arrived, which leave the status as it is. -/
def runTraps : Nat → Eval Unit
  | 0 => return ()
  | n + 1 => do
    let s ← get
    if s.traps.any fun t => t.1 ≠ 0 ∧ t.2 ≠ [] then
      let signals : List Nat ← ask .takeCaught
      for signal in signals.mergeSort do
        match (← get).traps.lookup signal with
        | some action =>
          let left := (← get).left
          let status := left.getD (← get).status
          modify fun s => { s with left := some status }
          let result ← attempt (runText n false 1 action)
          modify fun s => { s with left := left }
          release result
          setStatus status
        | none => pure ()

/-- Runs a text that begins on a line. -/
def runText : Nat → Bool → Nat → Bytes → Eval Unit
  | 0, _, _, _ => return ()
  | n + 1, last, line, text => runTokens n last (Cursor.tokens ⟨text, line, 0⟩)

/-- Runs the commands of a text in order. -/
def runTokens : Nat → Bool → List Lexeme → Eval Unit
  | 0, _, _ => return ()
  | n + 1, last, tokens => do
    match nextCommand (← get).aliases tokens with
    | .error mistake => refuseText mistake
    | .ok none => return ()
    | .ok (some r) =>
      runTree n (last && isOver r.rest) r.tree
      runTokens n last r.rest

/-- Runs the commands of a script in order as they are read from a descriptor.  What has been read
and not yet run begins at a place, and has been cut into tokens. -/
def runSource : Nat → Nat → Cursor → List Lexeme → Eval Unit
  | 0, _, _, _ => return ()
  | n + 1, fd, start, tokens => do
    match nextCommand (← get).aliases tokens with
    | .ok (some ⟨tree, some next, rest⟩) =>
      showText start next
      runTree n false tree
      runSource n fd next rest
    | _ =>
      match ← ask (.read fd Programs.blockSize) with
      | .ok (c :: more) =>
        let start := { start with text := start.text ++ (c :: more).filter (· ≠ nul) }
        runSource n fd start start.tokens
      | _ =>
        showText start ⟨[], 0, 0⟩
        runTokens n false tokens

end

/-! ### The program -/

/-- Whether a path leads to the working directory. -/
def isWorkingDirectory (path : Bytes) : Prog Bool := do
  match FileSystem.isAbsolute path, ← Prog.ask (.status path true),
      ← Prog.ask (.status FileSystem.dot true) with
  | true, .ok a, .ok b => return a.number = b.number
  | _, _, _ => return false

/-- The working directory by the name that the environment gives it, if that is right. -/
def startDirectory (environment : Environment) : Prog Bytes := do
  let place ← Prog.ask .workingDirectory
  let physical := place.toOption.getD []
  match environment.lookup (utf8 "PWD") with
  | some path => return if ← isWorkingDirectory path then path else physical
  | none => return physical

/-- The variables of a script at its start that it does not take from its environment. -/
def ownVariables (directory : Bytes) (parent : Int) : List (Bytes × Bytes) :=
  [(utf8 "PWD", directory), (utf8 "PPID", Programs.ofInt parent), (utf8 "IFS", [32, 9, 10]),
    (utf8 "OPTIND", [49])]

/-- The variables of a script at its start if its environment does not have them. -/
def defaultVariables : List (Bytes × Bytes) :=
  [(utf8 "PATH", utf8 "/usr/local/sbin:/usr/local/bin:/usr/sbin:/usr/bin:/sbin:/bin"),
    (utf8 "PS1", utf8 "$ "), (utf8 "PS2", utf8 "> "), (utf8 "PS4", utf8 "+ ")]

/-- What a script knows at its start. -/
def start (name : Bytes) (arguments : List Bytes) (environment : Environment) :
    Prog State := do
  let pid : Int ← Prog.ask .processId
  let parent : Int ← Prog.ask .parentId
  let directory ← startDirectory environment
  let given := environment.filter fun b => isName b.1
  let missing := defaultVariables.filter fun b => (given.lookup b.1).isNone
  let state : State :=
    { name := name
      arguments := arguments
      values := given ++ missing
      exported := utf8 "PWD" :: given.map (·.1)
      pid := pid
      directory := directory }
  return (ownVariables directory parent).foldl (fun s b => s.assign b.1 b.2) state

/-- Runs something as a script of its own, and ends with its status. -/
def runScript (state : State) (body : Eval Unit) : Prog Nat := do
  let (_, final) ← (conclude (runAction maxDepth) body).run state
  return final.status

/-- How the program is started. -/
structure Start where
  /-- The first operand is a script itself. -/
  command : Bool := false
  /-- The script is the input, whatever the operands are. -/
  fromInput : Bool := false
  options : Bytes := []
  operands : List Bytes := []

/-- Reads the words of the program, or gives the option that it does not have. -/
def readStart (begun : Start) : List Bytes → Except Bytes Start
  | [] => .ok begun
  | word :: rest =>
    match word with
    | [45, 45] | [45] => .ok { begun with operands := rest }
    | sign :: c :: letters =>
      if sign ≠ 45 ∧ sign ≠ 43 then .ok { begun with operands := word :: rest }
      else
        match (c :: letters).find? fun c => c ≠ 99 && !(optionNames.any (·.2.toUInt8 = c)) with
        | some c => .error [sign, c]
        | none =>
          let set := (c :: letters).filter fun c => c ≠ 99 && c ≠ 115
          readStart
            { begun with
              command := begun.command || (c :: letters).contains 99
              fromInput := begun.fromInput || (c :: letters).contains 115
              options := if sign = 45 then begun.options ++ set
                else begun.options.filter fun c => !set.contains c } rest
    | _ => .ok { begun with operands := word :: rest }

/-- Runs the script of a file, whose name is also that of the script. -/
def runPath (own path : Bytes) (state : State) : Prog Nat :=
  runScript state do
    match ← openSource path with
    | .ok fd => runSource maxDepth fd ⟨[], 1, 0⟩ []
    | .error errno =>
      mention (own ++ utf8 ": 0: cannot open " ++ path
        ++ utf8 (": " ++ openReason false errno ++ "\n"))
      setStatus 2

/-- Runs scripts: an argument, a file, or the input. -/
def sh (r : Programs.Request) : Prog Nat := do
  match readStart {} r.operands with
  | .error option =>
    let _ ← Programs.emit 2 (r.name ++ utf8 ": 0: Illegal option " ++ option ++ [newline])
    return 2
  | .ok begun =>
    let state (name : Bytes) (arguments : List Bytes) (reads : Bool) : Prog State := do
      let state ← start name arguments r.environment
      return { state with options := if reads then 115 :: begun.options else begun.options }
    match begun.command, begun.fromInput, begun.operands with
    | true, _, [] =>
      let _ ← Programs.emit 2 (r.name ++ utf8 ": 0: -c requires an argument\n")
      return 2
    | true, _, text :: rest =>
      runScript (← state (rest.headD r.name) (rest.drop 1) begun.fromInput)
        (runText maxDepth true 1 text)
    | false, false, path :: rest => runPath r.name path (← state path rest false)
    | false, _, arguments =>
      runScript (← state r.name arguments true) (runSource maxDepth 0 ⟨[], 1, 0⟩ [])

end JobShell.Script
