import LuaTypings.Host.Path
import LuaTypings.Text.Lines
import LuaTypings.Text.Utf8
import LuaTypings.Yaml.Value

/-!
# Hosts

A host is where the program runs: it has files, variables, users, two streams for text, a clock and a reader of YAML. What
the program does with files is written here once for every host.
-/

namespace LuaTypings

open Text (Bytes)

/-- Why a file operation failed, with the path that it was given. -/
inductive FileError where
  | notFound (path : Path)
  | alreadyExists (path : Path)
  | notDirectory (path : Path)
  | isDirectory (path : Path)
  /-- Any other failure, in the host's own words. -/
  | other (message : Text)
  deriving DecidableEq, Repr

/-- The words for a file error, with the number that the system gives it. -/
def FileError.message : FileError → Text
  | notFound p => "[Errno 2] No such file or directory: " ++ Text.quoted p.toText
  | alreadyExists p => "[Errno 17] File exists: " ++ Text.quoted p.toText
  | notDirectory p => "[Errno 20] Not a directory: " ++ Text.quoted p.toText
  | isDirectory p => "[Errno 21] Is a directory: " ++ Text.quoted p.toText
  | other message => message

/-- Why a file did not get its content. -/
inductive WriteError where
  /-- The file was not opened. -/
  | unopened (error : FileError)
  /-- The file was opened, which empties it, and then not written to the end. -/
  | unfinished (error : FileError)
  deriving DecidableEq, Repr

/-- What went wrong with a write. -/
def WriteError.error : WriteError → FileError
  | unopened e | unfinished e => e

/-- Whether the file was opened. -/
def WriteError.isUnfinished : WriteError → Bool
  | unopened _ => false
  | unfinished _ => true

/-- What a path may lead to. -/
inductive FileKind where
  | file
  | directory
  deriving DecidableEq, Repr

/-- The two streams of text that a program writes to. -/
inductive Stream where
  | output
  | errors
  deriving DecidableEq, Repr

/-- What a program can do on a host. -/
class Host (m : Type → Type) where
  /-- The absolute path of the current directory. -/
  currentDirectory : m Path
  /-- What a path leads to. -/
  kind? : Path → m (Option FileKind)
  /-- The content of a file. -/
  read : Path → m (Except FileError Bytes)
  /-- Makes one directory, in one that exists. -/
  makeDirectory : Path → m (Except FileError Unit)
  /-- Gives a file a content, the file being made if it does not exist. -/
  write : Path → Bytes → m (Except WriteError Unit)
  /-- Adds to the content of a file, the file being made if it does not exist. -/
  append : Path → Bytes → m (Except FileError Unit)
  /-- The value of an environment variable. -/
  environmentValue : Text → m (Option Text)
  /-- The home directory of a user, and without a name that of the one who runs the program. -/
  userHome? : (name : Text) → m (Option Text)
  /-- Writes text to a stream. -/
  print : Stream → Text → m Unit
  /-- The time, as a text. -/
  timestamp : m Text
  /-- The value of a text in YAML; nothing when the text is malformed. -/
  yamlValue? : Text → Option Yaml.Value

/-- Why a file has no text. -/
inductive ReadError where
  | file (error : FileError)
  | encoding (error : Text.DecodeError)
  deriving DecidableEq, Repr

/-- The words for a reading error. -/
def ReadError.message : ReadError → Text
  | file error => error.message
  | encoding error => error.message

namespace Host

variable {m : Type → Type} [Monad m] [Host m]

/-- Whether a path leads to anything. -/
def exists? (p : Path) : m Bool := do return (← kind? p).isSome

/-- Whether a path leads to a directory. -/
def isDirectory (p : Path) : m Bool := do return (← kind? p) == some .directory

/-- The text of a file, with every line end as a line feed. -/
def readText (p : Path) : m (Except ReadError Text) := do
  match ← read p with
  | .error e => return .error (.file e)
  | .ok bytes => match Text.decode bytes with
    | .error e => return .error (.encoding e)
    | .ok t => return .ok (Text.unifyNewlines t)

/-- Gives a file a text as its content. -/
def writeText (p : Path) (t : Text) : m (Except WriteError Unit) := write p (Text.encode t)

/-- Makes a directory that may exist already, in one that exists. -/
def ensureDirectory (p : Path) : m (Except FileError Unit) := do
  match ← makeDirectory p with
  | .ok () => return .ok ()
  | .error (.notFound q) => return .error (.notFound q)
  | .error e => return if ← isDirectory p then .ok () else .error e

/-- Makes a directory and those above it, as far as they do not exist. -/
def ensureDirectories (p : Path) : m (Except FileError Unit) := go p p.names.length
where
  /-- Goes up `steps` directories at most. -/
  go (p : Path) : Nat → m (Except FileError Unit)
    | 0 => ensureDirectory p
    | steps + 1 => do
      match ← ensureDirectory p with
      | .error (.notFound _) =>
        match ← go p.parent steps with
        | .ok () => ensureDirectory p
        | .error e => return .error e
      | done => return done

/-- The path of a home directory; the slashes at its end mean nothing, and nothing but slashes is the root. There is none
when it starts with a tilde itself. -/
def homePath? (home : Text) : Option Path :=
  if home.head? = some '~' then none else some (.ofText (if home.all (· == '/') then ['/'] else home))

/-- The home directory that a variable gives: only that of the one who runs the program, who is meant without a name. -/
def givenHome? : (name : Text) → m (Option Text)
  | [] => environmentValue "HOME"
  | _ :: _ => return none

/-- The home directory of a name behind a tilde: the one that a variable gives, or else that of the user. -/
def home? (name : Text) : m (Option Path) := do
  match ← givenHome? name with
  | some home => return homePath? home
  | none => return (← userHome? name).bind homePath?

/-- A path whose first name starts with a tilde starts at a home directory instead; nothing when there is no
such directory. -/
def expandHome (p : Path) : m (Option Path) := do
  match p.anchor, p.names with
  | .relative, ('~' :: name) :: names =>
    return (← home? name).map fun home => { home with names := home.names ++ names }
  | _, _ => return some p

/-- The absolute path, with two dots carried out, of a path. -/
def resolve (p : Path) : m Path := do return p.resolve (← currentDirectory)

end Host

end LuaTypings
