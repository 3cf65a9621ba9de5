import LuaTypings.Host.FileTree
import LuaTypings.Yaml.Node

/-!
# Workspaces

A workspace is a host within the language: a file tree, the variables of its environment, and what was printed so
far. Its clock stands still, and it has no users. What it writes to a file it writes to the end.
-/

namespace LuaTypings

/-- A host whose state is a value. -/
structure Workspace where
  files : FileTree
  current : Location
  environment : List (Text × Text)
  clock : Text
  output : Text
  errors : Text

namespace Workspace

/-- The workspace with other files. -/
def withFiles (w : Workspace) (files : FileTree) : Workspace := { w with files := files }

/-- Makes a change of the files, if it succeeds. -/
def changeFiles (change : Workspace → Except FileError FileTree) : StateM Workspace (Except FileError Unit) := do
  let w ← get
  match change w with
  | .error e => return .error e
  | .ok files =>
    set (w.withFiles files)
    return .ok ()

instance : Host (StateM Workspace) where
  currentDirectory := do return ⟨.root, (← get).current⟩
  kind? p := do
    let w ← get
    return w.files.kind? w.current p
  read p := do
    let w ← get
    return w.files.read w.current p
  makeDirectory p := changeFiles fun w => w.files.makeDirectory w.current p
  write p bytes := do
    return (← changeFiles fun w => w.files.change w.current p fun _ => bytes).mapError .unopened
  append p bytes := changeFiles fun w => w.files.change w.current p (· ++ bytes)
  environmentValue name := do return (← get).environment.lookup name
  userHome? _ := return none
  print stream t := modify fun w => match stream with
    | .output => { w with output := w.output ++ t }
    | .errors => { w with errors := w.errors ++ t }
  timestamp := do return (← get).clock
  yamlValue? := Yaml.Value.ofText?

end Workspace

end LuaTypings
