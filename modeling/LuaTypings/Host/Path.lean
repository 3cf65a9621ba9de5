import LuaTypings.Text.Search

/-!
# Paths

A path is a list of names behind an anchor. Slashes that repeat and names that are a single dot mean nothing; two
dots are kept, because what they mean depends on the names before them.
-/

namespace LuaTypings

/-- Where a path starts: at the current directory, at the root, or at the root written with two slashes. -/
inductive Anchor where
  | relative
  | root
  | doubleRoot
  deriving DecidableEq, Repr

/-- A path, by its anchor and its names. -/
structure Path where
  anchor : Anchor
  names : List Text
  deriving DecidableEq, Repr

namespace Path

/-- The names between the slashes of a text. -/
def namesOf (t : Text) : List Text :=
  (Text.splitAll (· == '/') t).filter fun name => name ≠ [] && name ≠ ['.']

/-- The path that a text stands for. -/
def ofText (t : Text) : Path :=
  let anchor := match t with
    | '/' :: '/' :: '/' :: _ => .root
    | '/' :: '/' :: _ => .doubleRoot
    | '/' :: _ => .root
    | _ => .relative
  ⟨anchor, namesOf t⟩

/-- The text of an anchor. -/
def anchorText : Anchor → Text
  | .relative => []
  | .root => ['/']
  | .doubleRoot => ['/', '/']

/-- The text of a path. The current directory is a dot. -/
def toText (p : Path) : Text :=
  match anchorText p.anchor ++ Text.join "/" p.names with
  | [] => ['.']
  | t => t

/-- Whether a path starts at the root. -/
def isAbsolute (p : Path) : Bool := p.anchor ≠ .relative

/-- A path seen from another one. An absolute path is the same from everywhere. -/
def join (p q : Path) : Path := if q.isAbsolute then q else { p with names := p.names ++ q.names }

/-- The path of the directory that a path lies in, going by its names alone. -/
def parent (p : Path) : Path := { p with names := p.names.dropLast }

/-- The last name. -/
def name (p : Path) : Text := p.names.getLast?.getD []

/-- The path with another last name. -/
def withName (p : Path) (name : Text) : Path := { p with names := p.names.dropLast ++ [name] }

/-- The last name without what comes behind its last dot, provided that something stands on either side. -/
def stem (p : Path) : Text :=
  match p.name.reverse.span (· ≠ '.') with
  | (_ :: _, '.' :: before) => if before.isEmpty then p.name else before.reverse
  | _ => p.name

/-- One step up takes the last name off, if there is one. -/
def stepUp (names : List Text) : List Text := names.dropLast

/-- The names with every two dots carried out, going by the names alone. -/
def normalizeNames (names : List Text) : List Text :=
  names.foldl (fun before name => if name = ['.', '.'] then stepUp before else before ++ [name]) []

/-- The absolute path, with two dots carried out, of a path seen from a directory. -/
def resolve (p directory : Path) : Path :=
  let q := directory.join p
  { q with names := normalizeNames q.names }

/-- The names of a path below a directory. -/
def below? (directory p : Path) : Option Path :=
  if p.anchor = directory.anchor && directory.names.isPrefixOf p.names then
    some ⟨.relative, p.names.drop directory.names.length⟩
  else none

end Path

end LuaTypings
