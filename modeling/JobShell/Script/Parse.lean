/-
**Reading a script.**

A script is read one complete command at a time: up to the first newline that does not stand inside
a control structure.  What comes before a mistake has been run by the time the mistake is found.

An alias is replaced where a command begins, before the grammar sees it.  What it stands for is cut
into tokens together with the text after it.

Main definitions:

* `JobShell.Script.Aliases`, `JobShell.Script.expandAliases` — aliases;
* `JobShell.Script.Parsed` — readers of tokens;
* `JobShell.Script.command`, `JobShell.Script.pipeline`, `JobShell.Script.list` — the grammar;
* `JobShell.Script.nextCommand` — the next complete command of a script.
-/

import JobShell.Script.Token

set_option autoImplicit false

namespace JobShell.Script

/-- A mistake, and the line on which it was found. -/
structure Mistake where
  error : SyntaxError
  line : Nat
  deriving DecidableEq, Repr, Inhabited

/-- Aliases, and what they stand for. -/
abbrev Aliases := List (Bytes × Bytes)

/-- Readers of tokens, who know the aliases: what they read, and the tokens left. -/
abbrev Parsed := ReaderT Aliases (StateT (List Lexeme) (Except Mistake))

/-- The words that have a meaning of their own where a command begins. -/
def reserved : List Bytes :=
  (["!", "\x7b", "\x7d", "case", "do", "done", "elif", "else", "esac", "fi", "for", "if", "in",
    "then", "until", "while"]).map utf8

/-- The commands whose failures end the script, and whose assignments stay.  No function can have
such a name. -/
def specialNames : List Bytes :=
  ([":", ".", "break", "continue", "eval", "exec", "exit", "export", "local", "readonly", "return",
    "set", "shift", "times", "trap", "unset"]).map utf8

/-- A token as syntax errors name it. -/
def Token.label : Token → String
  | .word text => if reserved.contains text then "\"" ++ Utf8.decodeLossy text ++ "\"" else "word"
  | .descriptor _ => "redirection"
  | .operator text =>
    if text.head? = some 60 ∨ text.head? = some 62 then "redirection"
    else "\"" ++ Utf8.decodeLossy text ++ "\""
  | .newline => "newline"
  | .here _ _ _ => "redirection"
  | .finished | .broken _ => "end of file"

/-- The next token. -/
def peek : Parsed Token := do
  match (← get).head? with
  | some lexeme =>
    match lexeme.token with
    | .broken e => throw ⟨e, lexeme.line⟩
    | token => return token
  | none => return .finished

/-- The line of the next token. -/
def currentLine : Parsed Nat := do
  return ((← get).head?.map (·.line)).getD 1

/-- Leaves a token behind. -/
def skip : Parsed Unit := modify (·.drop 1)

/-- The word of a token that has just been taken. -/
def wordAt (text : Bytes) (lexeme : Lexeme) : Word := ⟨text, lexeme.line - newlines text⟩

/-- Takes a word. -/
def word? : Parsed (Option Word) := do
  match ← peek, (← get).head? with
  | .word text, some lexeme =>
    skip
    return some (wordAt text lexeme)
  | _, _ => return none

/-- The next token is wrong. -/
def refuse {α : Type} (expected : Option String) : Parsed α := do
  let token ← peek
  throw ⟨.unexpected token.label expected, ← currentLine⟩

/-- The word of a text in a program of this library. -/
def isWord (token : Token) (text : String) : Bool := token == .word (utf8 text)

/-- Whether a token is the operator of a text. -/
def isOperator (token : Token) (text : String) : Bool := token == .operator (utf8 text)

/-- Takes a reserved word. -/
def expectWord (text : String) : Parsed Unit := do
  if isWord (← peek) text then skip else refuse (some ("\"" ++ text ++ "\""))

/-- Takes an operator. -/
def expectOperator (text : String) : Parsed Unit := do
  if isOperator (← peek) text then skip else refuse (some ("\"" ++ text ++ "\""))

/-- Takes an operator where reserved words are words like others. -/
def expectAfterWord (text : String) : Parsed Unit := do
  match ← peek with
  | .word _ => throw ⟨.unexpected "word" (some ("\"" ++ text ++ "\"")), ← currentLine⟩
  | _ => expectOperator text

/-- Leaves newlines behind. -/
def skipNewlines : Parsed Unit :=
  modify (·.dropWhile fun l => l.token == .newline)

/-- Whether a text is a name of variables. -/
def isName (s : Bytes) : Bool :=
  let isStart (c : UInt8) : Bool := (65 ≤ c && c ≤ 90) || (97 ≤ c && c ≤ 122) || c = 95
  match s with
  | c :: rest => isStart c && rest.all fun c => isStart c || (48 ≤ c && c ≤ 57)
  | [] => false

/-- Whether a word assigns to a variable. -/
def isAssignment (s : Bytes) : Bool := s.contains 61 && isName (s.takeWhile (· ≠ 61))

/-! ### Aliases -/

/-- Marks the tokens of a text that begin in an alias, before what is `left` after it. -/
def markAlias (name : Bytes) (within : List Bytes) (left : Nat) :
    Bytes → List Lexeme → List Lexeme
  | _, [] => []
  | text, lexeme :: rest =>
    if (skipBlank text).1.length ≤ left then lexeme :: rest
    else
      { lexeme with aliases := name :: within }
        :: markAlias name within left lexeme.after.text rest

/-- Replaces an alias at the front of the tokens.  If what it stands for ends in a blank, the word
after it can be an alias, too. -/
def expandAliases (aliases : Aliases) : Nat → List Lexeme → List Lexeme
  | 0, tokens => tokens
  | _, [] => []
  | n + 1, lexeme :: rest =>
    match lexeme.token with
    | .word text =>
      match aliases.lookup text with
      | some value =>
        if lexeme.aliases.contains text then lexeme :: rest
        else
          let left := lexeme.after.text.length
          let whole := value ++ lexeme.after.text
          let cut := { lexeme.after with text := whole }.tokens
          let tokens := expandAliases aliases n (markAlias text lexeme.aliases left whole cut)
          if value.getLast? = some 32 ∨ value.getLast? = some 9 then
            let (own, others) := tokens.span (·.aliases.contains text)
            own ++ expandAliases aliases n others
          else tokens
      | none => lexeme :: rest
    | _ => lexeme :: rest

/-- Replaces an alias at the front of the tokens; reserved words are none if they have a meaning
here. -/
def replaceAlias (anyWord : Bool) : Parsed Unit := do
  let aliases ← read
  if aliases ≠ [] then
    match ← peek with
    | .word text =>
      if anyWord || !reserved.contains text then
        modify fun tokens => expandAliases aliases (aliases.length + tokens.length) tokens
    | _ => return ()

/-! ### Redirections and words -/

/-- What an operator redirects, and the descriptor that is meant if none is given. -/
def redirectOperator? (text : Bytes) : Option (RedirectKind × Nat) :=
  if text = utf8 "<" then some (.input, 0)
  else if text = utf8 ">" then some (.output false, 1)
  else if text = utf8 ">|" then some (.output true, 1)
  else if text = utf8 ">>" then some (.append, 1)
  else if text = utf8 "<>" then some (.both, 0)
  else if text = utf8 "<&" then some (.copy, 0)
  else if text = utf8 ">&" then some (.copy, 1)
  else none

/-- Reads a redirection, if one begins here. -/
def redirect? : Parsed (Option Redirect) := do
  let tokens ← get
  let fd ← match ← peek with
    | .descriptor fd => do
      skip
      pure (some fd)
    | _ => pure none
  match ← peek with
  | .here body literal line =>
    skip
    return some ⟨fd.getD 0, .here literal, ⟨body, line⟩⟩
  | .operator text =>
    match redirectOperator? text with
    | some (kind, standard) =>
      skip
      match ← word? with
      | some target => return some ⟨fd.getD standard, kind, target⟩
      | none => refuse none
    | none =>
      set tokens
      return none
  | _ =>
    set tokens
    return none

/-- Reads redirections as long as there are any. -/
def redirects : Nat → Parsed (List Redirect)
  | 0 => return []
  | n + 1 => do
    match ← redirect? with
    | some r => return r :: (← redirects n)
    | none => return []

/-- A command with redirections, if there are any. -/
def Tree.withRedirects (line : Nat) (body : Tree) (rs : List Redirect) : Tree :=
  if rs.isEmpty then body else .redirected line body rs

/-- Reads the parts of a simple command: assignments, words and redirections. -/
def simpleParts : Nat → Bool → Parsed (List Word × List Word × List Redirect)
  | 0, _ => return ([], [], [])
  | n + 1, started => do
    if started = false then replaceAlias true
    match ← redirect? with
    | some r =>
      let (as, ws, rs) ← simpleParts n started
      return (as, ws, r :: rs)
    | none =>
      match ← word? with
      | some word =>
        if started = false ∧ isAssignment word.text then
          let (as, ws, rs) ← simpleParts n false
          return (word :: as, ws, rs)
        else
          let (as, ws, rs) ← simpleParts n true
          return (as, word :: ws, rs)
      | none => return ([], [], [])

/-- Reads words up to the end of a line. -/
def wordsInLine : Nat → Parsed (List Word)
  | 0 => return []
  | n + 1 => do
    match ← word? with
    | some word => return word :: (← wordsInLine n)
    | none => return []

/-- Reads the patterns of an arm. -/
def patterns : Nat → Parsed (List Word)
  | 0 => return []
  | n + 1 => do
    match ← word? with
    | some word =>
      if isOperator (← peek) "|" then
        skip
        return word :: (← patterns n)
      else return [word]
    | none => refuse (some "\")\"")

/-- Whether a token ends a list of commands. -/
def endsList (token : Token) : Bool :=
  match token with
  | .finished => true
  | .operator text => text = utf8 ")" || text = utf8 ";;"
  | .word text =>
    (["\x7d", "do", "done", "elif", "else", "esac", "fi", "then"].map utf8).contains text
  | _ => false

mutual

/-- Reads a command. -/
def command : Nat → Parsed Tree
  | 0 => refuse none
  | n + 1 => do
    replaceAlias false
    let line ← currentLine
    let token ← peek
    let finish (body : Tree) : Parsed Tree := do
      let rs ← redirects (← get).length
      return body.withRedirects line rs
    if isOperator token "(" then
      skip
      let body ← list n
      expectOperator ")"
      finish (.subshell line body)
    else if isWord token "\x7b" then
      skip
      let body ← list n
      expectWord "\x7d"
      finish body
    else if isWord token "if" then
      skip
      finish (← choice n)
    else if isWord token "while" ∨ isWord token "until" then
      skip
      let condition ← list n
      let body ← doBody n
      finish (.loop (isWord token "until") condition body)
    else if isWord token "for" then
      skip
      finish (← eachLoop n line)
    else if isWord token "case" then
      skip
      finish (← selection n line)
    else
      match token with
      | .word text =>
        if reserved.contains text then refuse none
        else simple n line
      | .descriptor _ | .here _ _ _ => simple n line
      | .operator text =>
        if (redirectOperator? text).isSome then simple n line else refuse none
      | _ => refuse none

/-- Reads a simple command, or the definition of a function. -/
def simple : Nat → Nat → Parsed Tree
  | 0, _ => refuse none
  | n + 1, line => do
    let (assignments, words, rs) ← simpleParts (← get).length false
    match words, assignments.isEmpty && rs.isEmpty && isOperator (← peek) "(" with
    | [name], true =>
      skip
      expectAfterWord ")"
      if isName name.text = false ∨ specialNames.contains name.text then throw ⟨.badName, line⟩
      skipNewlines
      return .function name.text (← command n)
    | _, _ => return .simple line assignments words rs

/-- Reads the rest of a choice. -/
def choice : Nat → Parsed Tree
  | 0 => refuse none
  | n + 1 => do
    let condition ← list n
    expectWord "then"
    let yes ← list n
    let token ← peek
    if isWord token "elif" then
      skip
      return .choice condition yes (← choice n)
    else if isWord token "else" then
      skip
      let no ← list n
      expectWord "fi"
      return .choice condition yes no
    else
      expectWord "fi"
      return .choice condition yes .nothing

/-- Reads the body of a loop. -/
def doBody : Nat → Parsed Tree
  | 0 => refuse none
  | n + 1 => do
    expectWord "do"
    let body ← list n
    expectWord "done"
    return body

/-- Reads the rest of a loop over words. -/
def eachLoop : Nat → Nat → Parsed Tree
  | 0, _ => refuse none
  | n + 1, line => do
    match ← peek with
    | .word name =>
      skip
      skipNewlines
      if isWord (← peek) "in" then
        skip
        let words ← wordsInLine (← get).length
        let token ← peek
        if isOperator token ";" ∨ token == .newline then skip else refuse none
        skipNewlines
        return .each line name (some words) (← doBody n)
      else
        if isOperator (← peek) ";" then skip
        skipNewlines
        return .each line name none (← doBody n)
    | _ => refuse none

/-- Reads the rest of a selection. -/
def selection : Nat → Nat → Parsed Tree
  | 0, _ => refuse none
  | n + 1, line => do
    match ← word? with
    | some subject =>
      skipNewlines
      expectWord "in"
      skipNewlines
      return .select line subject (← arms n)
    | none => refuse none

/-- Reads the arms of a selection. -/
def arms : Nat → Parsed (List (List Word × Tree))
  | 0 => refuse none
  | n + 1 => do
    let token ← peek
    if isWord token "esac" then
      skip
      return []
    else
      if isOperator token "(" then skip
      let ps ← patterns (← get).length
      expectAfterWord ")"
      let body ← optionalList n
      let token ← peek
      if isOperator token ";;" then
        skip
        skipNewlines
        return (ps, body) :: (← arms n)
      else
        expectWord "esac"
        return [(ps, body)]

/-- Reads a list that may be empty. -/
def optionalList : Nat → Parsed Tree
  | 0 => refuse none
  | n + 1 => do
    skipNewlines
    if endsList (← peek) then return .nothing else list n

/-- Reads commands that follow one another, over any number of lines. -/
def list : Nat → Parsed Tree
  | 0 => refuse none
  | n + 1 => do
    skipNewlines
    if (← peek) == .finished then return .nothing
    let first ← andOr n
    let token ← peek
    if isOperator token "&" then
      skip
      listRest n (.background first)
    else if isOperator token ";" ∨ token == .newline then
      skip
      listRest n first
    else return first

/-- Reads what follows a command and its separator. -/
def listRest : Nat → Tree → Parsed Tree
  | 0, _ => refuse none
  | n + 1, first => do
    skipNewlines
    if endsList (← peek) then return first else return .sequence first (← list n)

/-- Reads pipelines that depend on one another. -/
def andOr : Nat → Parsed Tree
  | 0 => refuse none
  | n + 1 => do
    let first ← pipeline n
    andOrRest n first

/-- Reads what follows a pipeline. -/
def andOrRest : Nat → Tree → Parsed Tree
  | 0, _ => refuse none
  | n + 1, first => do
    let token ← peek
    if isOperator token "&&" then
      skip
      skipNewlines
      andOrRest n (.both first (← pipeline n))
    else if isOperator token "||" then
      skip
      skipNewlines
      andOrRest n (.either first (← pipeline n))
    else return first

/-- Reads a pipeline. -/
def pipeline : Nat → Parsed Tree
  | 0 => refuse none
  | n + 1 => do
    let negated := isWord (← peek) "!"
    if negated then skip
    let first ← command n
    let rest ← stages n
    if rest.isEmpty ∧ negated = false then return first
    else return .pipeline negated (first :: rest)

/-- Reads the further commands of a pipeline. -/
def stages : Nat → Parsed (List Tree)
  | 0 => refuse none
  | n + 1 => do
    if isOperator (← peek) "|" then
      skip
      skipNewlines
      let first ← command n
      return first :: (← stages n)
    else return []

end

/-- Reads the commands of one line; also says whether a newline ends it. -/
def lineOf (fuel : Nat) : Nat → Parsed (Tree × Bool)
  | 0 => refuse none
  | n + 1 => do
    let first ← andOr fuel
    let token ← peek
    let goOn (tree : Tree) : Parsed (Tree × Bool) := do
      match ← peek with
      | .newline => return (tree, true)
      | .finished => return (tree, false)
      | _ =>
        let (rest, ended) ← lineOf fuel n
        return (.sequence tree rest, ended)
    if isOperator token "&" then
      skip
      goOn (.background first)
    else if isOperator token ";" then
      skip
      goOn first
    else if token == .newline then return (first, true)
    else if token == .finished then return (first, false)
    else refuse none

/-- How deep the grammar can be entered over some tokens. -/
def grammarDepth (aliases : Aliases) (tokens : List Lexeme) : Nat :=
  (12 * tokens.length + 12) * (1 + total (aliases.map (·.2.length)))

/-- A complete command of a script, the place after it if a newline ends it, and the tokens from
there on. -/
structure Reading where
  tree : Tree
  next : Option Cursor
  rest : List Lexeme

/-- The next complete command of a script; `none` at the end. -/
def nextCommand (aliases : Aliases) (tokens : List Lexeme) : Except Mistake (Option Reading) := do
  let tokens := tokens.dropWhile fun l => l.token == .newline
  let (token, tokens) ← (peek.run aliases).run tokens
  if token == .finished then return none
  let fuel := grammarDepth aliases tokens
  let ((tree, ended), rest) ← ((lineOf fuel (tokens.length + 1)).run aliases).run tokens
  match ended, rest with
  | true, newline :: rest => return some ⟨tree, some newline.after, rest⟩
  | _, rest => return some ⟨tree, none, rest⟩

end JobShell.Script
