import LuaTypings.Text.Lines
import LuaTypings.Text.Search

/-!
# Places in a configuration text

Indentation gives a configuration text its structure, so a place in it is known by its line and column. Scalars
are read here: they may go on over several lines, whose breaks are folded into spaces.
-/

namespace LuaTypings.Yaml

/-- A place in a text: what follows, its line and its column. -/
structure Cursor where
  rest : Text
  line : Nat
  column : Nat

/-- Whether a character breaks a line. -/
def isBreak (c : Char) : Bool :=
  c == '\n' || c == '\r' || c == '\x85' || c == '\u2028' || c == '\u2029'

/-- What a line break counts as: the separators of Unicode stay, all others are line feeds. -/
def breakText (c : Char) : Char := if c == '\u2028' || c == '\u2029' then c else '\n'

/-- Whether nothing, a blank or a line break comes next. -/
def endsToken (t : Text) : Bool := t.head?.all fun c => c == ' ' || c == '\t' || isBreak c

namespace Cursor

/-- The place behind some characters of the same line. -/
def advance (c : Cursor) (n : Nat) : Cursor := ⟨c.rest.drop n, c.line, c.column + n⟩

/-- Whether three equal characters stand at the start of a line, with nothing glued to them. -/
def hasMark (mark : Text) (c : Cursor) : Bool :=
  c.column == 0 && (Text.dropStart? mark c.rest).any endsToken

/-- Whether a document starts or ends here. -/
def atMarker (c : Cursor) : Bool := c.hasMark "---" || c.hasMark "..."

/-- Whether the document has no more content. -/
def atEnd (c : Cursor) : Bool := c.rest.isEmpty || c.atMarker

/-- The place behind spaces, line breaks and comments. -/
def skipFrom : (inComment : Bool) → Text → (line column : Nat) → Cursor
  | _, [], line, column => ⟨[], line, column⟩
  | inComment, c :: t, line, column =>
    if isBreak c then skipFrom false t (line + 1) 0
    else if inComment || c == '#' then skipFrom true t line (column + 1)
    else if c == ' ' then skipFrom false t line (column + 1)
    else ⟨c :: t, line, column⟩

/-- The place of the next content. -/
def skip (c : Cursor) : Cursor := skipFrom false c.rest c.line c.column

/-- The place behind spaces. -/
def skipSpaces (c : Cursor) : Cursor := c.advance (c.rest.takeWhile (· == ' ')).length

end Cursor

/-! ## Folding -/

/-- The line breaks up to the next content, and the place behind them and the blanks around them. Reading stops
at a marker. -/
def foldFrom (isGap : Char → Bool) : Text → (line column : Nat) → Text × Cursor
  | [], line, column => ([], ⟨[], line, column⟩)
  | c :: t, line, column =>
    if Cursor.atMarker ⟨c :: t, line, column⟩ then ([], ⟨c :: t, line, column⟩)
    else if isBreak c then
      let (breaks, cursor) := foldFrom isGap t (line + 1) 0
      (breakText c :: breaks, cursor)
    else if isGap c then foldFrom isGap t line (column + 1)
    else ([], ⟨c :: t, line, column⟩)

/-- What a run of line breaks is folded into: a single one becomes a space, of several the first is dropped. -/
def foldText : Text → Text
  | [] => []
  | '\n' :: [] => [' ']
  | '\n' :: breaks => breaks
  | breaks => breaks

/-! ## Plain scalars -/

/-- The characters that mean something of their own within brackets. -/
def isFlowMark (c : Char) : Bool := c == ',' || c == '[' || c == ']' || c == '\x7b' || c == '\x7d'

/-- Whether a colon ends a plain scalar here: a token ends behind it or, within brackets, one of their marks
follows. -/
def colonEnds (inFlow : Bool) (afterColon : Text) : Bool :=
  endsToken afterColon || (inFlow && afterColon.head?.any isFlowMark)

/-- The run of plain characters at the start: up to a blank, a line break or a mark. -/
def plainRun (inFlow : Bool) : Text → Text
  | [] => []
  | c :: t =>
    if endsToken (c :: t) || (c == ':' && colonEnds inFlow t) || (inFlow && (isFlowMark c || c == '?')) then []
    else c :: plainRun inFlow t

/-- Whether a plain scalar can start here: not with a mark, and with a dash, a question mark or a colon only
when it is glued to more. -/
def startsPlain (inFlow : Bool) : Text → Bool
  | [] => false
  | c :: t =>
    if c == '-' then !endsToken t
    else if c == '?' || c == ':' then !inFlow && !endsToken t
    else !endsToken (c :: t) && !isFlowMark c &&
      !("#&*!|>'\"%@".toList.contains c) && c.toNat ≠ 0x60

/-- Reads on in a plain scalar: its text, the line it ends on and the place behind it. A further line belongs to
it when it is indented by at least `least` columns. -/
def plainFrom (inFlow : Bool) (least : Nat) : (fuel : Nat) → Cursor → Text × Nat × Cursor
  | 0, c => ([], c.line, c)
  | fuel + 1, c =>
    let run := plainRun inFlow c.rest
    let behind := c.advance run.length
    let spaced := behind.skipSpaces
    let spaces := behind.rest.take (behind.rest.length - spaced.rest.length)
    let (gap, next) :=
      if spaced.rest.head?.any isBreak then
        let (breaks, next) := foldFrom (· == ' ') spaced.rest spaced.line spaced.column
        (foldText breaks, next)
      else (spaces, spaced)
    let goesOn := !gap.isEmpty && !next.atMarker && (inFlow || least ≤ next.column) &&
      next.rest.head? ≠ some '#' && !(plainRun inFlow next.rest).isEmpty
    if goesOn then
      let (more, line, last) := plainFrom inFlow least fuel next
      (run ++ gap ++ more, line, last)
    else (run, behind.line, next)

/-! ## Quoted scalars -/

/-- The characters that a letter behind a backslash stands for. -/
def escapes : List (Char × Char) :=
  [('0', '\x00'), ('a', '\x07'), ('b', '\x08'), ('t', '\t'), ('\t', '\t'), ('n', '\n'), ('v', '\x0b'),
   ('f', '\x0c'), ('r', '\r'), ('e', '\x1b'), (' ', ' '), ('"', '"'), ('\\', '\\'), ('/', '/'),
   ('N', '\x85'), ('_', '\xa0'), ('L', '\u2028'), ('P', '\u2029')]

/-- The value of a hexadecimal digit. -/
def hexDigit? (c : Char) : Option Nat :=
  if c.isDigit then some (c.toNat - '0'.toNat)
  else if 'a' ≤ c && c ≤ 'f' then some (c.toNat - 'a'.toNat + 10)
  else if 'A' ≤ c && c ≤ 'F' then some (c.toNat - 'A'.toNat + 10)
  else none

/-- The character of a code point written in hexadecimal digits. -/
def hexChar? (digits : Text) : Option Char := do
  let code ← digits.foldlM (fun n c => (hexDigit? c).map (16 * n + ·)) 0
  if h : code.isValidChar then some (Char.ofNatAux code h) else none

/-- How many hexadecimal digits follow a letter behind a backslash. -/
def hexWidth? (c : Char) : Option Nat :=
  if c == 'x' then some 2 else if c == 'u' then some 4 else if c == 'U' then some 8 else none

/-- What a backslash and the characters behind it stand for, and how many these characters are. -/
def escape? : Text → Option (Char × Nat)
  | [] => none
  | c :: t =>
    match escapes.lookup c with
    | some value => some (value, 1)
    | none => do
      let width ← hexWidth? c
      guard (width ≤ t.length)
      return (← hexChar? (t.take width), width + 1)

/-- The text of a quoted scalar up to its closing quote, and the place behind that. -/
def quotedFrom (quote : Char) : (fuel : Nat) → Cursor → Option (Text × Cursor)
  | 0, _ => none
  | fuel + 1, c =>
    match c.rest with
    | [] => none
    | x :: t =>
      if x == quote then
        if quote == '\'' && t.head? == some quote then do
          let (more, last) ← quotedFrom quote fuel (c.advance 2)
          return (quote :: more, last)
        else some ([], c.advance 1)
      else if x == '\\' && quote == '"' then
        if t.head?.any isBreak then do
          -- A break behind a backslash joins the lines without a space.
          let (breaks, next) := foldFrom (fun c => c == ' ' || c == '\t') t c.line (c.column + 1)
          guard !next.atMarker
          let (more, last) ← quotedFrom quote fuel next
          return (breaks.drop 1 ++ more, last)
        else do
          let (value, width) ← escape? t
          let (more, last) ← quotedFrom quote fuel (c.advance (width + 1))
          return (value :: more, last)
      else if x == ' ' || x == '\t' || isBreak x then
        let blanks := c.rest.takeWhile fun c => c == ' ' || c == '\t'
        let behind := c.advance blanks.length
        if behind.rest.head?.any isBreak then do
          let (breaks, next) := foldFrom (fun c => c == ' ' || c == '\t') behind.rest behind.line behind.column
          guard !next.atMarker
          let (more, last) ← quotedFrom quote fuel next
          return (foldText breaks ++ more, last)
        else do
          let (more, last) ← quotedFrom quote fuel behind
          return (blanks ++ more, last)
      else do
        let (more, last) ← quotedFrom quote fuel (c.advance 1)
        return (x :: more, last)

end LuaTypings.Yaml
