import LuaTypings.Yaml.Plain

/-!
# Reading a configuration text

Within brackets a node is read by its marks alone; outside, by the column where it starts. Every reader gives
the value and the place behind it, or nothing when the text is malformed. The readers call each other no more
often than the text has characters, a few times each; `fuel` bounds the calls.

This is a reader for the part of YAML that configurations are written in: anchors, tags, keys with parts and scalars behind a
bar or an angle bracket are malformed to it. Which reader a host has is up to the host.
-/

namespace LuaTypings.Yaml

/-- A value that may be a key, which has no parts. -/
def Value.key? : Value → Option Scalar
  | .scalar s => some s
  | .list _ | .mapping _ => none

/-- The value of an entry without one. -/
def Value.absent : Value := .scalar .null

/-! ## Within brackets -/

mutual

/-- A node within brackets. -/
def flowNode : (fuel : Nat) → Cursor → Option (Value × Cursor)
  | 0, _ => none
  | fuel + 1, c =>
    if c.atMarker then none
    else match c.rest with
      | '[' :: _ => do
        let (items, last) ← flowItems fuel (c.advance 1)
        return (.list items, last)
      | '\x7b' :: _ => do
        let (entries, last) ← flowEntries fuel (c.advance 1)
        return (.mapping entries, last)
      | t =>
        if t.head? == some '"' || t.head? == some '\'' then do
          let (text, last) ← quotedFrom (t.head?.getD '"') t.length (c.advance 1)
          return (.scalar (.string text), last)
        else if startsPlain true t then
          let (text, _, last) := plainFrom true 0 t.length c
          some (.scalar (.ofPlain text), last)
        else none

/-- The items of a list up to its bracket. An item that a colon follows is the key of a mapping by itself. -/
def flowItems : (fuel : Nat) → Cursor → Option (List Value × Cursor)
  | 0, _ => none
  | fuel + 1, c =>
    let start := c.skip
    if start.rest.head? == some ']' then some ([], start.advance 1)
    else do
      let (item, behind) ← flowPair fuel start
      let next := behind.skip
      let value := match item with
        | (key, some value) => Value.mapping [(key.key?.getD .null, value)]
        | (value, none) => value
      match next.rest with
      | ',' :: _ =>
        let (items, last) ← flowItems fuel (next.advance 1)
        return (value :: items, last)
      | ']' :: _ => return ([value], next.advance 1)
      | _ => none

/-- The entries of a mapping up to its bracket. -/
def flowEntries : (fuel : Nat) → Cursor → Option (List (Scalar × Value) × Cursor)
  | 0, _ => none
  | fuel + 1, c =>
    let start := c.skip
    if start.rest.head? == some '\x7d' then some ([], start.advance 1)
    else do
      let ((key, value), behind) ← flowPair fuel start
      let entry := (← key.key?, value.getD Value.absent)
      let next := behind.skip
      match next.rest with
      | ',' :: _ =>
        let (entries, last) ← flowEntries fuel (next.advance 1)
        return (entry :: entries, last)
      | '\x7d' :: _ => return ([entry], next.advance 1)
      | _ => none

/-- A node within brackets, and the value behind its colon if it has one. The colon stands on the line of its
key, which has no parts. -/
def flowPair : (fuel : Nat) → Cursor → Option ((Value × Option Value) × Cursor)
  | 0, _ => none
  | fuel + 1, c => do
    let (key, behind) ← flowNode fuel c
    let colon := behind.skip
    if colon.rest.head? == some ':' && colon.line == c.line then
      guard key.key?.isSome
      let start := (colon.advance 1).skip
      if start.rest.head?.any fun c => c == ',' || c == ']' || c == '\x7d' then
        return ((key, some Value.absent), start)
      else
        let (value, last) ← flowNode fuel start
        return ((key, some value), last)
    else return ((key, none), behind)

end

/-! ## Outside brackets -/

/-- Whether an item of a list starts here. -/
def startsItem (t : Text) : Bool := t.head? == some '-' && endsToken (t.drop 1)

/-- Whether the colon behind a key is here. -/
def startsValue (t : Text) : Bool := t.head? == some ':' && endsToken (t.drop 1)

/-- A scalar, or a node in brackets: its value, the line it ends on and the place behind it. -/
def leaf (fuel least : Nat) (c : Cursor) : Option (Value × Nat × Cursor) :=
  if startsPlain false c.rest then
    let (text, line, last) := plainFrom false least c.rest.length c
    some (.scalar (.ofPlain text), line, last)
  else do
    guard (c.rest.head?.any fun c => c == '[' || c == '\x7b' || c == '"' || c == '\'')
    let (value, last) ← flowNode fuel c
    return (value, last.line, last)

/-- The place of the next content, which is not on the line that the content before it ends on. -/
def settle (endLine : Nat) (c : Cursor) : Option Cursor :=
  let next := c.skip
  if next.rest.isEmpty || next.line ≠ endLine then some next else none

/-- A key with its colon: the key and the place behind the colon. -/
def blockKey (fuel column : Nat) (c : Cursor) : Option (Scalar × Cursor) := do
  let (value, _, behind) ← leaf fuel (column + 1) c
  let colon := behind.skipSpaces
  guard (colon.line == c.line && startsValue colon.rest)
  return (← value.key?, colon.advance 1)

mutual

/-- A node whose further lines are indented by at least `least` columns. Only where a line or an item starts may
it be `compact`: a list, or a mapping that starts with its first key. -/
def blockNode : (fuel least : Nat) → (compact : Bool) → Cursor → Option (Value × Cursor)
  | 0, _, _, _ => none
  | fuel + 1, least, compact, c =>
    if startsItem c.rest then do
      guard compact
      let (items, last) ← blockItems fuel c.column false c
      return (.list items, last)
    else do
      let (value, endLine, behind) ← leaf fuel least c
      let colon := behind.skipSpaces
      if compact && colon.line == c.line && startsValue colon.rest then
        let (entries, last) ← blockEntries fuel c.column (← value.key?) (colon.advance 1)
        return (.mapping entries, last)
      else return (value, ← settle endLine behind)

/-- The items of a list whose dashes stand in a column. A list that is the value of a key in the same column ends
where the next key stands. -/
def blockItems : (fuel column : Nat) → (underKey : Bool) → Cursor → Option (List Value × Cursor)
  | 0, _, _, _ => none
  | fuel + 1, column, underKey, c => do
    let behind := c.advance 1
    let start := behind.skip
    let (item, next) ←
      if !start.atEnd && column < start.column then blockNode fuel (column + 1) true start
      else some (Value.absent, start)
    if next.atEnd || next.column < column then return ([item], next)
    else if next.column == column && startsItem next.rest then
      let (items, last) ← blockItems fuel column underKey next
      return (item :: items, last)
    else
      guard (next.column == column && underKey)
      return ([item], next)

/-- The entries of a mapping whose keys stand in a column, from the place behind the first key on. -/
def blockEntries : (fuel column : Nat) → Scalar → Cursor → Option (List (Scalar × Value) × Cursor)
  | 0, _, _, _ => none
  | fuel + 1, column, key, c => do
    let start := c.skip
    let (value, next) ←
      if start.atEnd then some (Value.absent, start)
      else if start.line == c.line then blockNode fuel (column + 1) false start
      else if column < start.column then blockNode fuel (column + 1) true start
      else if start.column == column && startsItem start.rest then
        (blockItems fuel column true start).map fun (items, last) => (Value.list items, last)
      else some (Value.absent, start)
    if next.atEnd || next.column < column then return ([(key, value)], next)
    else
      guard (next.column == column)
      let (key', behind) ← blockKey fuel column next
      let (entries, last) ← blockEntries fuel column key' behind
      return ((key, value) :: entries, last)

end

/-! ## Whole texts -/

/-- The characters that a text may hold. -/
def isPrintable (c : Char) : Bool :=
  Text.inRanges
    [(0x09, 0x0a), (0x0d, 0x0d), (0x20, 0x7e), (0x85, 0x85), (0xa0, 0xd7ff), (0xe000, 0xfffd), (0x10000, 0x10ffff)] c

/-- The node of a document and the place behind it. What stands on the line of a starting mark is no mapping
and no list outside brackets. -/
def document (fuel : Nat) (c : Cursor) : Option (Value × Cursor) :=
  if c.hasMark "---" then
    let start := (c.advance 3).skip
    if start.atEnd then some (Value.absent, start) else blockNode fuel 0 (start.line ≠ c.line) start
  else do
    guard !c.atMarker
    if c.rest.isEmpty then some (Value.absent, c) else blockNode fuel 0 true c

/-- The place behind the marks that end a document. -/
def skipEndMarks : (fuel : Nat) → Cursor → Cursor
  | 0, c => c
  | fuel + 1, c => if c.hasMark "..." then skipEndMarks fuel (c.advance 3).skip else c

/-- The value of a text that holds one document at most. -/
def Value.ofText? (text : Text) : Option Value := do
  let text := Text.unifyNewlines ((Text.dropStart? ['\ufeff'] text).getD text)
  guard (text.all isPrintable)
  let (value, last) ← document (4 * text.length + 4) (Cursor.mk text 0 0).skip
  guard (skipEndMarks text.length last).rest.isEmpty
  return value

end LuaTypings.Yaml
