import SqlForms.Expr.Exchange
import SqlForms.Json.Reader
import SqlForms.Session
import SqlForms.Value.Convert

/-! # The command line

    Words select a command and set flags.  A flag may stand before the
    command or after it, and at most once in each place; what is not set by
    a word may be set by an environment variable.

    The compile command writes one tree; with arguments, the tree is a
    template that they fill.  The other command lists the operators. -/

namespace SqlForms.CommandLine

/-! ## Words -/

/-- What a word can turn on. -/
inductive Flag where
  | standardStrings
  | quoteNames
  /-- Changes nothing of what is printed. -/
  | verbose
  deriving DecidableEq, Repr

/-- The flag of a long word. -/
def Flag.ofLong? : String → Option Flag
  | "--standard-strings" => some .standardStrings
  | "--quote-identifiers" => some .quoteNames
  | "--verbose" => some .verbose
  | _ => none

/-- The flag of a letter in a short word. -/
def Flag.ofLetter? : Char → Option Flag
  | 'v' => some .verbose
  | _ => none

/-- What there is to do. -/
inductive Command where
  | compile (file : Option String) (arguments : List String)
  | operators
  deriving DecidableEq, Repr

/-- Adds a flag to those that were given in the same place. -/
def addFlag? (given : List Flag) (f : Flag) : Option (List Flag) :=
  if f ∈ given then none else some (f :: given)

/-- What the words after a command have given so far; arguments are kept last first. -/
structure Given where
  flags : List Flag := []
  file : Option String := none
  arguments : List String := []
  deriving DecidableEq, Repr

namespace Given

/-- Adds a flag. -/
def flag? (g : Given) (f : Flag) : Option Given := do
  return { g with flags := ← addFlag? g.flags f }

/-- Adds the file; there is at most one, and it has a name. -/
def word? (g : Given) (path : String) : Option Given :=
  match g.file with
  | none => if path = "" then none else some { g with file := some path }
  | some _ => none

/-- Adds an argument. -/
def argument (g : Given) (text : String) : Given :=
  { g with arguments := text :: g.arguments }

end Given

/-- How a word goes on. -/
inductive Reading where
  /-- The word is complete. -/
  | complete (g : Given)
  /-- The next word is an argument. -/
  | awaits (g : Given)

/-- Reads the letters of a short word: flags, then perhaps an argument with its text. -/
def readLetters? (g : Given) : List Char → Option Reading
  | [] => some (.complete g)
  | 'a' :: [] => some (.awaits g)
  | 'a' :: '=' :: text => some (.complete (g.argument (String.ofList text)))
  | 'a' :: text => some (.complete (g.argument (String.ofList text)))
  | c :: cs =>
      match Flag.ofLetter? c with
      | some f => do readLetters? (← g.flag? f) cs
      | none => none

/-- Whether a word can only be a flag: it starts with a dash and goes on. -/
def isDashed (word : String) : Bool :=
  match word.toList with
  | '-' :: _ :: _ => true
  | _ => false

/-- Reads a word that starts with a dash and goes on. -/
def readDashed? (g : Given) (word : String) : Option Reading :=
  match Flag.ofLong? word, word.toList with
  | some f, _ => (g.flag? f).map .complete
  | none, ['-', '-', 'a', 'r', 'g'] => some (.awaits g)
  | none, '-' :: '-' :: 'a' :: 'r' :: 'g' :: '=' :: text =>
      some (.complete (g.argument (String.ofList text)))
  | none, '-' :: '-' :: _ => none
  | none, '-' :: letters => readLetters? g letters
  | none, _ => none

/-- Reads the words after the compile command.  After two dashes alone no word is a flag. -/
def readCompile? (g : Given) : List String → Option Given
  | [] => some g
  | "--" :: words => words.foldlM Given.word? g
  | word :: words =>
      if isDashed word then
        match readDashed? g word, words with
        | some (.complete g), words => readCompile? g words
        | some (.awaits g), value :: words =>
            if isDashed value then none else readCompile? (g.argument value) words
        | _, _ => none
      else do readCompile? (← g.word? word) words

/-- Reads a word of flags only. -/
def readFlags? (given : List Flag) (word : String) : Option (List Flag) :=
  match Flag.ofLong? word, word.toList with
  | some f, _ => addFlag? given f
  | none, '-' :: c :: cs =>
      (c :: cs).foldlM (fun given letter =>
        match Flag.ofLetter? letter with
        | some f => addFlag? given f
        | none => none) given
  | none, _ => none

/-- Reads the words after the operators command. -/
def readOperators? (given : List Flag) : List String → Option (List Flag)
  | [] => some given
  | "--" :: words => if words = [] then some given else none
  | word :: words => do readOperators? (← readFlags? given word) words

/-- A command with the flags before it and after it. -/
structure Invocation where
  before : List Flag
  after : List Flag
  command : Command
  deriving DecidableEq, Repr

/-- Reads all words. -/
def readWords? (before : List Flag) : List String → Option Invocation
  | [] => none
  | "compile" :: words => do
      let g ← readCompile? {} words
      return ⟨before, g.flags, .compile g.file g.arguments.reverse⟩
  | "operators" :: words => do
      return ⟨before, ← readOperators? [] words, .operators⟩
  | word :: words => do readWords? (← readFlags? before word) words

/-! ## Environment -/

/-- The environment variables that stand in for flags. -/
structure Environment where
  standardStrings : Option String := none
  quoteNames : Option String := none
  deriving DecidableEq, Repr

/-- The environment variable for the dialect. -/
def Environment.standardStringsName : String := "TREESQL_STANDARD_STRINGS"

/-- The environment variable for the quoting of names. -/
def Environment.quoteNamesName : String := "TREESQL_QUOTE_IDENTIFIERS"

/-- The setting of a variable: it is `true` or `false` if it is set at all. -/
def variableSetting? : Option String → Option Bool
  | none => some false
  | some "true" => some true
  | some "false" => some false
  | some _ => none

/-- Whether a flag is on.  The variable is read in each of the two places where the flag could
    stand and does not; the flag wins over it. -/
def Invocation.setting? (i : Invocation) (f : Flag) (variable_ : Option String) :
    Option Bool :=
  if f ∈ i.before ∧ f ∈ i.after then some true
  else do
    let value ← variableSetting? variable_
    return value || f ∈ i.before || f ∈ i.after

/-- A command and the configuration it runs with. -/
structure Job where
  config : Config
  command : Command

/-- Reads the words and the environment. -/
def Job.read? (words : List String) (env : Environment) : Option Job := do
  let i ← readWords? [] words
  let standard ← i.setting? .standardStrings env.standardStrings
  let quote ← i.setting? .quoteNames env.quoteNames
  let session := (({} : Session).setStandardStrings standard).setQuoteNames quote
  return ⟨session.config, i.command⟩

/-! ## Running -/

/-- Why a command came to nothing. -/
inductive Failure where
  | unreadable (path : String)
  | unreadableInput
  | notTree
  /-- An argument, counted from one, is not JSON. -/
  | argumentText (position : Nat) (text : String)
  /-- An argument, counted from one, is JSON and no value. -/
  | argumentValue (position : Nat)
  | error (e : Error)

/-- The message of a failure. -/
def Failure.message : Failure → String
  | .unreadable path => "failed to read " ++ path
  | .unreadableInput => "failed to read standard input"
  | .notTree => "input is not a valid expression tree"
  | .argumentText position text =>
      "argument " ++ toString position ++ " is not valid JSON: " ++ text
  | .argumentValue position => "argument " ++ toString position ++ " has no SQL form"
  | .error e => e.message

/-- An error of the library as a failure of the command. -/
def orFail {α : Type} : Except Error α → Except Failure α
  | .ok a => .ok a
  | .error e => .error (.error e)

/-- The file to read a tree from; none is standard input, which a dash stands for too. -/
def inputFile? : Option String → Option String
  | some path => if path = "-" then none else some path
  | none => none

/-- The tree of a text. -/
def readTree (text : String) : Except Failure Expr :=
  match Expr.read? text with
  | some e => .ok e
  | none => .error .notTree

/-- The values of the arguments, the first of which has the given position. -/
def readArguments (position : Nat) : List String → Except Failure (List Value)
  | [] => .ok []
  | text :: texts =>
      match Json.read? (some Json.nestingLimit) text with
      | none => .error (.argumentText position text)
      | some j =>
          match Value.ofJson j with
          | .error _ => .error (.argumentValue position)
          | .ok v => do
              let vs ← readArguments (position + 1) texts
              return v :: vs

/-- The text of the compile command for the text of a tree: a statement with numbered parameters,
    or, when there are arguments, a template filled with them. -/
def compileText (config : Config) (arguments : List String) (input : String) :
    Except Failure String := do
  let e ← readTree input
  let compiler : Compiler := { registry := .builtin, config }
  if arguments = [] then
    let c ← orFail (compiler.compile e)
    return c.numbered
  else
    let values ← readArguments 1 arguments
    let t ← orFail (compiler.template e)
    orFail (t.fill values)

/-- The lines of the operators command. -/
def operatorLines : List String :=
  Registry.builtin.listing

end SqlForms.CommandLine
