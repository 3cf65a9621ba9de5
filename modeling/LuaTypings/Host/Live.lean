import LuaTypings.Host.Basic
import LuaTypings.Yaml.Node
import Std.Time

/-!
# The live host

The machine that the program runs on.
-/

namespace LuaTypings

open Text (Bytes)

/-- A failure of the system, for the path that it was asked about. -/
def FileError.ofFailure (p : Path) : IO.Error → FileError
  | .noFileOrDirectory .. => .notFound p
  | .alreadyExists .. => .alreadyExists p
  | .inappropriateType _ code details =>
    if code == 20 then .notDirectory p
    else if code == 21 then .isDirectory p
    else .other details.toList
  | e => .other (toString e).toList

namespace Host.Live

/-- A path in the system's terms. -/
def systemPath (p : Path) : String := String.ofList p.toText

/-- Bytes in the system's terms. -/
def systemBytes (bytes : Bytes) : ByteArray := ⟨bytes.toArray⟩

/-- Does something with a path and catches what goes wrong. -/
def attempt {α : Type} (p : Path) (action : IO α) : IO (Except FileError α) := do
  match ← action.toBaseIO with
  | .ok a => return .ok a
  | .error e => return .error (.ofFailure p e)

/-- What the system has at a path. -/
def systemKind? (p : Path) : IO (Option FileKind) := do
  let kind ← attempt p do
    let entry ← (← IO.FS.realPath (systemPath p)).metadata
    return if entry.type == .dir then FileKind.directory else FileKind.file
  return kind.toOption

/-- The fields of the lines of a database of the system. -/
def records (database : Text) (separator : Char) : List (List Text) :=
  (Text.splitAll (· == '\n') database).map (Text.splitAll (· == separator))

/-- The number of the user who runs the program, as the system tells it about the process. -/
def userNumber? (status : Text) : Option Text :=
  ((records status '\t').find? (·.head? = some "Uid:".toList)).bind (·[1]?)

/-- The home directory in the database of users: of a name, or without one of a number. -/
def homeIn? (users name : Text) (number : Option Text) : Option Text :=
  let isMeant := fun fields : List Text =>
    if name.isEmpty then fields[2]?.isSome && fields[2]? = number else fields.head? = some name
  ((records users ':').find? isMeant).bind (·[5]?)

/-- The text of a file of the system, empty when there is none. -/
def systemText (name : Text) : IO Text := do
  let p := Path.ofText name
  let bytes ← attempt p do return (← IO.FS.readBinFile (systemPath p)).toList
  return ((bytes.toOption.bind fun bytes => (Text.decode bytes).toOption).getD [])

instance : Host IO where
  currentDirectory := do return .ofText (← IO.currentDir).toString.toList
  kind? := systemKind?
  read p := attempt p do return (← IO.FS.readBinFile (systemPath p)).toList
  makeDirectory p := attempt p (IO.FS.createDir (systemPath p))
  write p bytes := do
    match ← attempt p (IO.FS.Handle.mk (systemPath p) .write) with
    | .error e => return .error (.unopened e)
    | .ok handle =>
      let written ← attempt p do
        handle.write (systemBytes bytes)
        handle.flush
      return written.mapError .unfinished
  append p bytes := attempt p do
    let handle ← IO.FS.Handle.mk (systemPath p) .append
    handle.write (systemBytes bytes)
  environmentValue name := do return (← IO.getEnv (String.ofList name)).map String.toList
  userHome? name := do
    return homeIn? (← systemText "/etc/passwd") name (userNumber? (← systemText "/proc/self/status"))
  print stream t := do
    let target ← match stream with
      | .output => IO.getStdout
      | .errors => IO.getStderr
    target.putStr (String.ofList t)
    target.flush
  timestamp := do return ((← Std.Time.PlainDateTime.now).format "uuuu-MM-dd HH:mm:ss,SSS").toList
  yamlValue? := Yaml.Value.ofText?

end Host.Live

end LuaTypings
