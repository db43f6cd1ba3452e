/-
**Programs that run others.**

Main definitions:

* `JobShell.Programs.Splitting`, `JobShell.Programs.splitWords` — a text that holds many words;
* `JobShell.Programs.env` — running a command in a changed environment, or writing that;
* `JobShell.Programs.nohup`, `JobShell.Programs.nice` — running a command that outlives its terminal,
  or one that is in no hurry;
* `JobShell.Programs.timeout` — running a command for some time at most.
-/

import JobShell.Launch
import JobShell.Programs.Status
import JobShell.Programs.Variables
import JobShell.Text.Escape
import JobShell.Text.SignalName

set_option autoImplicit false

namespace JobShell.Programs

/-- The exit code of a program that has not come so far as to run another one. -/
def cancelled : Nat := 125

/-- The exit code when a command cannot be run. -/
def commandCode (e : Errno) : Nat := if e = Errno.noEntry then 127 else 126

/-- Complains about words that make no sense together. -/
def cancelWith (r : Request) (text : Bytes) : Prog Nat := r.object cancelled (.misuse text)

/-- Runs a command in the place of the program, or complains about it. -/
def become (r : Request) (what : String) (command : List Bytes) (environment : Environment) :
    Prog Nat := do
  let name := command.headD []
  let errno ← Prog.execSearching name command environment
  r.complainOf (utf8 what ++ Quoted.escaped name) errno
  return commandCode errno

/-! ### Texts that hold many words -/

/-- Marks around a part of a text. -/
inductive Marks where
  | none
  | single
  | double
  deriving DecidableEq, Repr, Inhabited

/-- Words that are being read, the last of them perhaps unfinished. -/
structure Splitting where
  finished : List Bytes := []
  current : Option Bytes := none
  marks : Marks := .none

namespace Splitting

/-- Adds bytes to the word that is being read. -/
def push (s : Splitting) (bytes : Bytes) : Splitting :=
  { s with current := some (s.current.getD [] ++ bytes) }

/-- Ends the word that is being read. -/
def close (s : Splitting) : Splitting :=
  { s with finished := s.finished ++ s.current.toList, current := none }

/-- The byte for which a letter stands after a backslash. -/
def escaped? (letter : UInt8) : Option UInt8 :=
  ((utf8 "fnrtv#$\"'\\").zip [12, 10, 13, 9, 11, 35, 36, 34, 39, 92]).lookup letter

/-- Whether a byte separates words. -/
def isGap (c : UInt8) : Bool := c = 32 || (9 ≤ c && c ≤ 13)

/-- Reads the name of a variable after a dollar sign, and gives the rest. -/
def nameAhead? (s : Bytes) : Option (Bytes × Bytes) :=
  match s with
  | 123 :: rest =>
    let name := rest.takeWhile fun c => isNameByte c
    if name ≠ [] ∧ (name.head?.bind digit?).isNone ∧ rest[name.length]? = some 125 then
      some (name, rest.drop (name.length + 1))
    else none
  | _ => none
where
  isNameByte (c : UInt8) : Bool :=
    c = 95 || (48 ≤ c && c ≤ 57) || (65 ≤ c && c ≤ 90) || (97 ≤ c && c ≤ 122)

/-- Reads a text to its end.  The number bounds the steps. -/
def run (environment : Environment) : Nat → Splitting → Bytes → Except Bytes (List Bytes)
  | 0, s, _ => .ok s.close.finished
  | _ + 1, s, [] =>
    if s.marks = .none then .ok s.close.finished
    else .error (utf8 "no terminating quote in -S string")
  | n + 1, s, c :: rest =>
    match s.marks, c with
    | .single, 39 | .double, 34 => run environment n { s.push [] with marks := .none } rest
    | .none, 39 => run environment n { s.push [] with marks := .single } rest
    | .none, 34 => run environment n { s.push [] with marks := .double } rest
    | .single, 92 =>
      match rest with
      | 39 :: rest => run environment n (s.push [39]) rest
      | 92 :: rest => run environment n (s.push [92]) rest
      | rest => run environment n (s.push [92]) rest
    | marks, 92 =>
      match rest with
      | [] => .error (utf8 "invalid backslash at end of string in -S")
      | 99 :: _ =>
        if marks = .double then
          .error (utf8 "'\\c' must not appear in double-quoted -S string")
        else .ok s.close.finished
      | 95 :: rest =>
        run environment n (if marks = .double then s.push [32] else s.close) rest
      | letter :: rest =>
        match escaped? letter with
        | some byte => run environment n (s.push [byte]) rest
        | none =>
          .error (utf8 "invalid sequence '" ++ [92, letter] ++ utf8 "' in -S")
    | .single, c => run environment n (s.push [c]) rest
    | marks, 36 =>
      match nameAhead? rest with
      | some (name, rest) =>
        match environment.lookup name with
        | some value => run environment n (s.push value) rest
        | none => run environment n { s with marks := marks } rest
      | none =>
        .error (utf8 "only $\x7bVARNAME\x7d expansion is supported, error at: " ++ c :: rest)
    | .double, c => run environment n (s.push [c]) rest
    | .none, c =>
      if isGap c then run environment n s.close rest
      else if c = 35 ∧ s.current.isNone then .ok s.finished
      else run environment n (s.push [c]) rest

end Splitting

/-- The words that a text holds. -/
def splitWords (environment : Environment) (text : Bytes) : Except Bytes (List Bytes) :=
  Splitting.run environment (text.length + 1) {} text

/-- Words in which texts that hold many words are replaced by these, as far as options stand there.
The number bounds the steps. -/
def spreadWords (environment : Environment) : Nat → List Bytes → Except Bytes (List Bytes)
  | 0, words => .ok words
  | _, [] => .ok []
  | n + 1, word :: rest =>
    let spread (text : Bytes) (rest : List Bytes) : Except Bytes (List Bytes) := do
      spreadWords environment n ((← splitWords environment text) ++ rest)
    let long := utf8 "--split-string"
    let flags := (word.drop 1).takeWhile fun c => (utf8 "i0v").contains c
    match word, word.drop (1 + flags.length), rest with
    | 45 :: _ :: _, 83 :: text, rest => do
      let words ← match text, rest with
        | [], [] => return word :: rest
        | [], text :: rest => spread text rest
        | text, rest => spread text rest
      return (if flags = [] then words else (45 :: flags) :: words)
    | 45 :: 45 :: _, _, rest =>
      if word = long ∧ rest ≠ [] then spread (rest.headD []) (rest.drop 1)
      else if (long ++ [61]).isPrefixOf word then spread (word.drop (long.length + 1)) rest
      else if word = [45, 45] then return word :: rest
      else return word :: (← spreadWords environment n rest)
    | [45, c], _, argument :: rest =>
      if c = 117 ∨ c = 67 then
        return word :: argument :: (← spreadWords environment n rest)
      else return word :: (← spreadWords environment n (argument :: rest))
    | 45 :: _ :: _, _, rest => return word :: (← spreadWords environment n rest)
    | _, _, rest => return word :: rest

/-! ### Environments and signals -/

/-- The options of `env`. -/
def envOptions : OptionSet :=
  .ofText "C:iS:u:v0"
    ["ignore-environment=i", "null=0", "unset:=u", "chdir:=C", "default-signal::",
      "ignore-signal::", "block-signal::", "list-signal-handling", "debug=v", "split-string:=S"]

/-- The signals that an argument names; all if it is empty. -/
def signalsNamed (text : Bytes) : Except Objection (List Nat) :=
  if text = [] then .ok ((List.range 32).drop 1)
  else
    (Bytes.splitAt 44 text).mapM fun word =>
      let name := if (utf8 "SIG").isPrefixOf word then word.drop 3 else word
      match Signal.named? name with
      | some n => .ok n
      | none => .error (.misuse (Quoted.escaped word ++ utf8 ": invalid signal"))

/-- Makes the arrangements for signals that options ask for. -/
def arrangeSignals (r : Request) : Prog (Except Objection Unit) := do
  let asked := r.options.filterMap fun o => match o with
    | (.word "ignore-signal", text) => some (Disposition.ignore, text)
    | (.word "default-signal", text) => some (Disposition.default, text)
    | _ => none
  match asked.mapM fun (d, text) => (signalsNamed text).map fun signals => (d, signals) with
  | .error objection => return .error objection
  | .ok all =>
    for (d, signals) in all do
      for signal in signals do
        let _ ← Prog.ask (.dispose signal d)
    return .ok ()

/-- Runs a command in a changed environment, or writes that. -/
def envRequest (r : Request) : Prog Nat := do
  let (dashed, operands) := match r.operands with
    | [45] :: rest => (true, rest)
    | operands => (false, operands)
  let emptied := r.has 'i' || dashed
  let unset := if emptied then [] else r.arguments 'u'
  match unset.find? fun name => name = [] ∨ name.contains 61 with
  | some name =>
    r.complainOf (utf8 "cannot unset " ++ Quoted.escaped name) Errno.invalid
    return cancelled
  | none =>
    let start := if emptied then [] else r.environment.filter fun b => !unset.contains b.1
    let (environment, command) := assignAhead start operands
    match command, r.has '0', r.argument? 'C' with
    | [], _, some _ => cancelWith r (utf8 "must specify command with --chdir (-C)")
    | [], zero, none =>
      say (endLines (if zero then nul else newline) (environment.map binding))
      return 0
    | _ :: _, true, _ => cancelWith r (utf8 "cannot specify --null (-0) with command")
    | name :: _, false, place =>
      match ← arrangeSignals r with
      | .error objection => r.object cancelled objection
      | .ok () =>
        let moved ← match place with
          | some place => Prog.ask (.changeDirectory place)
          | none => pure (.ok ())
        match moved with
        | .error errno =>
          r.complainOf (utf8 "cannot change directory to " ++ Quoted.forShell (place.getD [])) errno
          return cancelled
        | .ok () =>
          let code ← become r "" command environment
          if code = 127 ∧ name.any Splitting.isGap then
            r.complain (utf8 "use -[v]S to pass options in shebang lines")
          return code

/-- Runs a command in a changed environment, or writes that. -/
def env (r : Request) : Prog Nat := do
  let bound := r.operands.length + total (r.operands.map List.length)
  match spreadWords r.environment bound r.operands with
  | .error text =>
    r.complain text
    return cancelled
  | .ok words =>
    match Request.read envOptions true (r.name :: words) r.environment with
    | .error refusal => cancelWith r refusal.message
    | .ok r => envRequest r

/-! ### Patience -/

/-- The signal that a terminal sends when it goes away. -/
def hangUp : Nat := 1

/-- Runs a command that outlives its terminal. -/
def nohup (r : Request) : Prog Nat := do
  if r.operands = [] then cancelWith r (utf8 "missing operand")
  else
    let _ ← Prog.ask (.dispose hangUp .ignore)
    become r "failed to run command " r.operands r.environment

/-- The adjustment that a first word with a number asks for. -/
def adjustmentAhead (words : List Bytes) : Option (Bytes × List Bytes) :=
  match words with
  | (45 :: number) :: rest =>
    let digits := match number with
      | 45 :: digits | 43 :: digits => digits
      | digits => digits
    if (digits.head?.bind digit?).isSome then some (number, rest) else none
  | _ => none

/-- Runs a command that is in no hurry. -/
def nice (r : Request) : Prog Nat := do
  let (ahead, words) := match adjustmentAhead r.operands with
    | some (number, rest) => (some number, rest)
    | none => (none, r.operands)
  match Request.read (.ofText "n:" ["adjustment:=n"]) true (r.name :: words) r.environment with
  | .error refusal => cancelWith r refusal.message
  | .ok r =>
    let given := (r.argument? 'n').or ahead
    match given.filter fun text => (int? text).isNone, given, r.operands with
    | some text, _, _ =>
      r.complain (utf8 "invalid adjustment " ++ Quoted.escaped text)
      return cancelled
    | none, some _, [] => cancelWith r (utf8 "a command must be given with an adjustment")
    | none, none, [] =>
      say (utf8 "0\n")
      return 0
    | none, _, command => become r "" command r.environment

/-! ### Limits of time -/

/-- The exit code for a command that has run too long. -/
def timedOut : Nat := 124

/-- A limit of time for a command. -/
structure TimeLimit where
  milliseconds : Nat
  signal : Nat
  /-- How long after that the command is killed. -/
  grace : Option Nat
  /-- The exit code of the command counts in any case. -/
  preserving : Bool

namespace TimeLimit

/-- Waits for a process; nothing if the time has passed. -/
def await (pid : Int) (milliseconds : Nat) : Prog (Option Ending) := do
  let how := if milliseconds = 0 then Waiting.patient else .within milliseconds
  match ← Prog.ask (.wait (some pid) how) with
  | .ok (some (_, ending)) => return some ending
  | _ => return none

/-- Ends the program by a signal, like the process that it has watched. -/
def follow (signal : Nat) : Prog Nat := do
  let own : Int ← Prog.ask .processId
  let _ ← Prog.ask (.kill own signal)
  return 128 + signal

/-- The exit code for the end of a process that was not stopped. -/
def codeFor : Ending → Prog Nat
  | .exited code => return code.toNat
  | .killed signal => follow signal

/-- Sends a signal to a process that has run too long. -/
def send (r : Request) (pid : Int) (signal : Nat) (command : Bytes) : Prog Unit := do
  if r.has 'v' then
    r.complain (utf8 "sending signal " ++ Signal.written signal ++ utf8 " to command "
      ++ Quoted.escaped command)
  let _ ← Prog.ask (.kill pid signal)

/-- Stops a process that has run too long, and gives the exit code. -/
def stop (t : TimeLimit) (r : Request) (pid : Int) (command : Bytes) : Prog Nat := do
  send r pid t.signal command
  let ending ← await pid (t.grace.getD 0)
  let killed := ending.isNone || t.signal = Signal.kill
  let ending ← match ending with
    | some ending => pure (some ending)
    | none =>
      send r pid Signal.kill command
      await pid 0
  if killed then follow Signal.kill
  else
    match ending, t.preserving with
    | some (.exited code), true => return code.toNat
    | some (.killed signal), true => return 128 + signal
    | _, _ => return timedOut

/-- Runs a command. -/
def run (t : TimeLimit) (r : Request) (command : List Bytes) : Prog Nat := do
  match ← Prog.ask .fork with
  | .error errno =>
    r.complainOf (utf8 "fork system call failed") errno
    return cancelled
  | .ok .child =>
    Prog.exit (← become r "failed to run command " command r.environment)
  | .ok (.parent pid) =>
    match ← await pid t.milliseconds with
    | some ending => codeFor ending
    | none => t.stop r pid (command.headD [])

end TimeLimit

/-- Runs a command for some time at most. -/
def timeout (r : Request) : Prog Nat := do
  let duration (text : Bytes) : Except Objection Nat :=
    match duration? text with
    | some n => .ok n
    | none => .error (.misuse (utf8 "invalid time interval " ++ Quoted.escaped text))
  let read : Except Objection (Nat × Option Nat) := do
    let signals ← (r.arguments 's').mapM signalsNamed
    let graces ← (r.arguments 'k').mapM duration
    return ((signals.getLast?.bind List.head?).getD Signal.terminate, graces.getLast?)
  match read, r.operands with
  | .error objection, _ => r.object cancelled objection
  | .ok (signal, grace), limit :: name :: words =>
    match duration limit with
    | .error objection => r.object cancelled objection
    | .ok milliseconds =>
      let t : TimeLimit :=
        { milliseconds := milliseconds, signal := signal, grace := grace
          preserving := r.hasWord "preserve-status" }
      t.run r (name :: words)
  | .ok _, _ =>
    r.tryHelp
    return cancelled

end JobShell.Programs
