import Edm.Command.Outcome

/-!
This module contains the entry point of the program.
-/

def main (args : List String) : IO UInt32 := do
  let outcome := Edm.Command.execute args
  IO.print outcome.output
  IO.eprint outcome.diagnostics
  return outcome.code
