import SqlForms.CommandLine

/-! # The program

    Reads the words, the environment and the input, and prints what the
    command line gives. -/

namespace SqlForms.CommandLine

/-- Reads a file, or standard input. -/
def readInput : Option String → IO (Except Failure String)
  | none => do
      try
        return .ok (← (← IO.getStdin).readToEnd)
      catch _ => return .error .unreadableInput
  | some path => do
      try
        return .ok (← IO.FS.readFile path)
      catch _ => return .error (.unreadable path)

/-- Runs a job and gives the exit code. -/
def Job.run (job : Job) : IO UInt32 := do
  match job.command with
  | .operators =>
      operatorLines.forM IO.println
      return 0
  | .compile file arguments =>
      let input ← readInput (inputFile? file)
      match input.bind (compileText job.config arguments) with
      | .ok text =>
          IO.println text
          return 0
      | .error failure =>
          IO.eprintln ("Error: " ++ failure.message)
          return 1

/-- What is said when the words make no command. -/
def usage : String :=
  "usage: [--standard-strings] [--quote-identifiers] (compile [FILE] [-a JSON]... | operators)"

end SqlForms.CommandLine

open SqlForms CommandLine

/-- The program. -/
def main (words : List String) : IO UInt32 := do
  let env : Environment :=
    { standardStrings := ← IO.getEnv Environment.standardStringsName
      quoteNames := ← IO.getEnv Environment.quoteNamesName }
  match Job.read? words env with
  | some job => job.run
  | none =>
      IO.eprintln usage
      return 2
