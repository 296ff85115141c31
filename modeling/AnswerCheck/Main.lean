import AnswerCheck.Command.Run

/-! # The program

Runs the command line on the operating system: commands read standard input and files, results go to
standard output, and failures and warnings to standard error.
-/

set_option autoImplicit false

open AnswerCheck.Command

instance : Host IO where
  input := do (← IO.getStdin).readBinToEnd
  find path := do
    match ← (IO.FS.readBinFile path).toBaseIO with
    | .ok bytes => return .content bytes
    | .error (.noFileOrDirectory ..) => return .missing
    | .error _ => return .unreadable
  write path text := do
    match ← (IO.FS.writeFile path text).toBaseIO with
    | .ok _ => return true
    | .error _ => return false

def main (args : List String) : IO UInt32 := do
  let outcome ← (run args : IO Outcome)
  if let some warning := outcome.warning? then IO.eprintln warning.message
  if let some failure := outcome.failure? then IO.eprintln ("Error: " ++ failure.message)
  if outcome = .stopped .misuse then IO.eprint Outcome.usage
  IO.print outcome.output
  return outcome.exitCode.toUInt32
