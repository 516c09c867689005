import PortArbiter.Command.Run
/-!
# The program

Carries out the command that its arguments ask for.
-/

namespace PortArbiter

local instance : Exponential := Exponential.machine

private def leave (o : Output) : IO UInt32 := do
  IO.print o.text
  IO.eprint o.errors
  return o.exit

private def attempt {α : Type} (act : IO α) : IO (Except FileError α) := do
  try
    return .ok (← act)
  catch e =>
    return .error ⟨toString e⟩

def Plan.perform : Plan → IO UInt32
  | .finish o => leave o
  | .reading file next => do leave (next (← attempt (IO.FS.readFile file)))
  | .writing file content next => do leave (next (← attempt (IO.FS.writeFile file content)))

def perform (args : List String) : IO UInt32 :=
  match Command.ofArguments? args with
  | none => leave { errors := Command.usage, exit := 2 }
  | some command => command.run.perform

end PortArbiter

def main (args : List String) : IO UInt32 :=
  PortArbiter.perform args
