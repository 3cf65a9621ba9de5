import LuaTypings.Host.Basic

/-!
# File trees

A file tree holds files and directories under the names of the directories that lead to them. Walking along a path
needs a directory at every step; two dots lead one step back.
-/

namespace LuaTypings

open Text (Bytes)

/-- Where a file or a directory is: the names from the root on. -/
abbrev Location := List Text

/-- What is at a location. -/
inductive FileNode where
  | file (content : Bytes)
  | directory
  deriving DecidableEq, Repr

/-- Files and directories by their locations. The root is always a directory. -/
structure FileTree where
  nodes : List (Location × FileNode)
  deriving DecidableEq, Repr

namespace FileTree

/-- The tree with nothing but the root. -/
def empty : FileTree := ⟨[]⟩

/-- What is at a location. -/
def node? (t : FileTree) (l : Location) : Option FileNode := if l = [] then some .directory else t.nodes.lookup l

/-- Puts a node into a list of nodes, in the place of the one that is at its location. -/
def setNode (l : Location) (node : FileNode) : List (Location × FileNode) → List (Location × FileNode)
  | [] => [(l, node)]
  | (known, old) :: rest => if known = l then (l, node) :: rest else (known, old) :: setNode l node rest

/-- Puts a node at a location. -/
def set (t : FileTree) (l : Location) (node : FileNode) : FileTree := ⟨setNode l node t.nodes⟩

/-- Puts a node at a location and directories above it, where nothing is. -/
def insert (t : FileTree) (l : Location) (node : FileNode) : FileTree :=
  let withParents := (List.range l.length).foldl
    (fun t n => if (t.node? (l.take n)).isSome then t else t.set (l.take n) .directory) t
  withParents.set l node

/-- Why a walk along a path ends before its last name. -/
inductive WalkError where
  /-- Nothing is where a directory is needed. -/
  | missing
  /-- A file is where a directory is needed. -/
  | throughFile
  deriving DecidableEq, Repr

/-- Walks from a location along names. Every step starts in a directory. -/
def walk (t : FileTree) (l : Location) : List Text → Except WalkError Location
  | [] => .ok l
  | name :: names =>
    match t.node? l with
    | none => .error .missing
    | some (.file _) => .error .throughFile
    | some .directory => walk t (if name = ['.', '.'] then l.dropLast else l ++ [name]) names

/-- The location that a path leads to from a directory, whether anything is there or not. -/
def locate (t : FileTree) (current : Location) (p : Path) : Except WalkError Location :=
  t.walk (if p.isAbsolute then [] else current) p.names

/-- A walk's error as a file error for the path. -/
def WalkError.toFileError (p : Path) : WalkError → FileError
  | missing => .notFound p
  | throughFile => .notDirectory p

/-- What a path leads to. -/
def kind? (t : FileTree) (current : Location) (p : Path) : Option FileKind :=
  match t.locate current p with
  | .error _ => none
  | .ok l => (t.node? l).map fun
    | .file _ => .file
    | .directory => .directory

/-- The content of the file that a path leads to. -/
def read (t : FileTree) (current : Location) (p : Path) : Except FileError Bytes :=
  match t.locate current p with
  | .error e => .error (e.toFileError p)
  | .ok l => match t.node? l with
    | none => .error (.notFound p)
    | some .directory => .error (.isDirectory p)
    | some (.file content) => .ok content

/-- The tree with one more directory. -/
def makeDirectory (t : FileTree) (current : Location) (p : Path) : Except FileError FileTree :=
  match t.locate current p with
  | .error e => .error (e.toFileError p)
  | .ok l => match t.node? l with
    | some _ => .error (.alreadyExists p)
    | none => .ok (t.set l .directory)

/-- The tree with another content of a file, made from the old one, which is empty for a new file. -/
def change (t : FileTree) (current : Location) (p : Path) (newContent : Bytes → Bytes) :
    Except FileError FileTree :=
  match t.locate current p with
  | .error e => .error (e.toFileError p)
  | .ok l => match t.node? l with
    | some .directory => .error (.isDirectory p)
    | some (.file content) => .ok (t.set l (.file (newContent content)))
    | none => .ok (t.set l (.file (newContent [])))

/-- The files of a tree that another tree does not have, or has with another content. -/
def changedSince (t before : FileTree) : List (Location × Bytes) :=
  t.nodes.filterMap fun (l, node) => match node with
    | .directory => none
    | .file content => if before.node? l = some (.file content) then none else some (l, content)

end FileTree

end LuaTypings
