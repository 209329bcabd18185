import ExprTree.Command

/-!
The command line tool.
-/

/-- Print what the tool answers, and end with its code. -/
def main (arguments : List String) : IO UInt32 := do
  let stdout ← IO.getStdout
  let response := ExprTree.Command.respond (← stdout.isTty) arguments
  stdout.putStr response.output
  if let some text := response.diagnosis then
    IO.eprintln text
  return response.code.toUInt32
