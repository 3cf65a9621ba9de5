import LuaTypings.Source.Directive
import LuaTypings.TypeText.Leading

/-!
# Reading a line

A line is read from left to right: words, the blanks between them and a last part that takes the rest of the
line. A last part never holds a line feed. A line that starts like a directive and does not go on like one says
nothing.
-/

namespace LuaTypings.Source

/-! ## Parts of a line -/

/-- The text behind at least one blank. -/
def afterBlanks? (t : Text) : Option Text :=
  if t.head?.any Text.isBlank then some (Text.stripStart t) else none

/-- A word at the start, and what follows it. -/
def word? (t : Text) : Option (Text × Text) :=
  match Text.spanWord t with
  | ([], _) => none
  | found => some found

/-- The last part of a line, behind at least one blank. -/
def lastPart? (t : Text) : Option Text := do
  let part ← afterBlanks? t
  if part.isEmpty || part.contains '\n' then none else some part

/-- A word that a question mark may follow, whether one does, and what follows. -/
def markedWord? (t : Text) : Option (Text × Bool × Text) := do
  let (name, rest) ← word? t
  match rest with
  | '?' :: rest => some (name, true, rest)
  | rest => some (name, false, rest)

/-- Words separated by single dots, and what follows the last of them. -/
def dottedWords? (t : Text) : Option (List Text × Text) :=
  let (path, rest) := t.span fun c => Text.isWordChar c || c == '.'
  let names := Text.splitAll (· == '.') path
  if names.any List.isEmpty then none else some (names, rest)

/-! ## Code -/

/-- The names in a declared parameter list, up to its closing parenthesis. -/
def declaredParams? (t : Text) : Option (List Text) := do
  let inside ← Text.dropStart? "(" (Text.stripStart t)
  let (names, some _) := Text.cutAtChar ')' inside | none
  return ((Text.splitAll (· == ',') names).map Text.strip).filter (!·.isEmpty)

/-- A function declaration. The class is the last name of the path before the method. -/
def declaredFunction? (t : Text) : Option DeclaredFunction := do
  let (path, rest) ← dottedWords? (← afterBlanks? (← Text.dropStart? "function" t))
  match rest with
  | ':' :: rest =>
    let (method, rest) ← word? rest
    return ⟨← path.getLast?, method, ← declaredParams? rest, true⟩
  | _ => return ⟨← path.dropLast.getLast?, ← path.getLast?, ← declaredParams? rest, false⟩

/-- The assignment of an empty table to a member of a table. -/
def emptyTable? (t : Text) : Option (Text × Text) := do
  let (outer, rest) ← word? t
  let (inner, rest) ← word? (← Text.dropStart? "." rest)
  let rest ← Text.dropStart? "=" (Text.stripStart rest)
  let rest ← Text.dropStart? "\x7b" (Text.stripStart rest)
  let rest ← Text.dropStart? "\x7d" (Text.stripStart rest)
  if rest.isEmpty then some (outer, inner) else none

/-! ## Annotations -/

/-- A parameter annotation; three dots name the variadic parameter. -/
def paramNote? (t : Text) : Option ParamNote := do
  let (name, optional, rest) ← match Text.dropStart? "..." t with
    | some rest => some ("...".toList, false, rest)
    | none => markedWord? t
  return ⟨name, (TypeText.spanType (← lastPart? rest)).1, optional⟩

/-- The words that may stand before a field to say where it can be used. -/
def fieldScopes : List Text := ["public", "private", "protected", "package"]

/-- What follows a field's scope, when one is given. -/
def afterScope? (t : Text) : Option Text := do
  let (scope, rest) ← word? t
  if fieldScopes.contains scope then afterBlanks? rest else none

/-- An index field, its key in square brackets. -/
def indexField? (t : Text) : Option (Text × Text) := do
  let (key, rest) ← word? (← Text.dropStart? "[" t)
  return (key, ← lastPart? (← Text.dropStart? "]" rest))

/-- The note of a field whose type may go on in prose. A function type keeps all of its text; behind any other
type a capitalised word starts the description. -/
def FieldNote.ofParts (name : Text) (optional : Bool) (type : Text) : FieldNote :=
  if TypeText.isFunctionText type then ⟨name, type, optional, none⟩
  else match Text.cutCapitalised? type with
    | some (head, rest) => ⟨name, Text.strip head, optional, some (Text.strip rest)⟩
    | none => ⟨name, type, optional, none⟩

/-- A named field. -/
def fieldNote? (t : Text) : Option FieldNote := do
  let (name, optional, rest) ← markedWord? t
  return .ofParts name optional (← lastPart? rest)

/-- Reads a text with the scope before it, or as it is when that fails. -/
def scoped? {α : Type} (read : Text → Option α) (t : Text) : Option α :=
  (afterScope? t).bind read <|> read t

/-- What an annotation says, by its keyword and the text behind it. -/
def tagged? (keyword body : Text) : Option Directive :=
  if keyword = "type" then (word? body).map fun (name, _) => .exportHint name
  else if keyword = "class" then (word? body).map fun (name, _) => .classStart name
  else if keyword = "alias" then do
    let (name, rest) ← word? body
    return .alias name (← lastPart? rest)
  else if keyword = "param" then (paramNote? body).map .param
  else if keyword = "return" then
    if body.isEmpty || body.contains '\n' then none else some (.returns (TypeText.withoutProse body))
  else if keyword = "field" then
    ((scoped? indexField? body).map fun (key, value) => .indexField key value) <|>
      (scoped? fieldNote? body).map .field
  else none

/-- What the content of an annotation comment says. -/
def Directive.ofContent (content : Text) : Directive :=
  match content with
  | [] => .silent
  | '@' :: t =>
    let (keyword, rest) := t.span (!Text.isBlank ·)
    (tagged? keyword (Text.stripStart rest)).getD .silent
  | _ => .description content

/-- What a line without blanks at its ends says when it is neither a function declaration nor the assignment of
a table. Plain comments and assignments to the global table say nothing. -/
def Directive.ofOther (t : Text) : Directive :=
  match Text.dropStart? "---" t with
  | some content => .ofContent (Text.strip content)
  | none => if t.isEmpty || Text.startsWith "--" t || Text.startsWith "_G." t then .silent else .otherCode

/-- What a line of source says. -/
def Directive.ofLine (line : Text) : Directive :=
  let t := Text.strip line
  match declaredFunction? t with
  | some declaration => .function declaration
  | none => match emptyTable? t with
  | some (outer, inner) => .nested outer inner
  | none => .ofOther t

end LuaTypings.Source
