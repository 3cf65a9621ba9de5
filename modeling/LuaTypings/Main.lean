import LuaTypings.CommandLine.Run
import LuaTypings.Host.Live

/-!
# The program
-/

open LuaTypings

/-- Runs the program on the machine. -/
def main (arguments : List String) : IO UInt32 := do
  let outcome ← CommandLine.run (arguments.map String.toList)
  match outcome with
  | .ok code => return code.toUInt32
  | .error e =>
    Host.print .errors (e.message ++ "\n")
    return 1
