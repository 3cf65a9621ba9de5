import LuaTypings.Text.Basic

/-!
# Lines

Two readings of line ends. `splitLines` takes every line boundary of Unicode as the end of a line;
`unifyNewlines` turns the carriage-return forms of a file into single line feeds.
-/

namespace LuaTypings.Text

/-- The characters that end a line: the feeds and the return, the file, group and record separators, and the
next-line, line-separator and paragraph-separator characters. -/
def isLineEnd (c : Char) : Bool :=
  inRanges [(0x0a, 0x0d), (0x1c, 0x1e), (0x85, 0x85), (0x2028, 0x2029)] c

/-- The lines of a text without their ends. A return and a line feed after it end one line together, and a
text that stops at the end of a line has no further, empty line. -/
def splitLines : Text → List Text
  | [] => []
  | '\r' :: '\n' :: t => [] :: splitLines t
  | c :: t =>
    if isLineEnd c then [] :: splitLines t
    else match splitLines t with
      | [] => [[c]]
      | line :: lines =>
        (c :: line) :: lines

/-- Every return, with the line feed after it if there is one, becomes a line feed. -/
def unifyNewlines : Text → Text
  | [] => []
  | '\r' :: '\n' :: t => '\n' :: unifyNewlines t
  | '\r' :: t => '\n' :: unifyNewlines t
  | c :: t => c :: unifyNewlines t

end LuaTypings.Text
