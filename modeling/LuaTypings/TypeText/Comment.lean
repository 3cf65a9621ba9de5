import LuaTypings.Text.Search
import LuaTypings.Text.Word
import LuaTypings.TypeText.Bracket

/-!
# Comments and prose behind a type

A type expression may be followed by a comment or, behind a return type, by words of description. Comments
are marked and are cut exactly. Prose is only guessed at, by capitals and bare words, so cutting it can lose
a part of a type.
-/

namespace LuaTypings.TypeText

/-- The trimmed text without a comment: everything from a dash comment behind a space on, or from a number
sign behind two spaces on, is left out. -/
def withoutComment (t : Text) : Text :=
  Text.strip (Text.before "  #" (Text.strip (Text.before " --" (Text.strip t))))

/-- The bare words that are types of their own and therefore never prose. -/
def typeWords : List Text :=
  ["nil", "string", "number", "boolean", "integer", "any", "void", "table", "function", "userdata"]

/-- Whether a word may begin prose: it starts with a small letter or an underscore, and is no type. -/
def isProseWord (word : Text) : Bool :=
  match word with
  | [] => false
  | c :: _ => (Text.isSmall c || c == '_') && !typeWords.contains word

/-- The text without a last word of prose, when a single space sets that word off. -/
def dropProseWord (t : Text) : Text :=
  match t.reverse.span Text.isWordChar with
  | (word, ' ' :: rest) => if isProseWord word.reverse then Text.strip rest.reverse else t
  | _ => t

/-- Whether a character may end a type that a further word follows. -/
def endsType (c : Char) : Bool := c == '>' || c == ']' || Text.isWordChar c

/-- Whether blanks stand somewhere between the end of a type and a word: two types in a row are no type. -/
def hasWordAfterType : Text → Bool
  | [] => false
  | c :: t =>
    (endsType c && match t.span Text.isBlank with
      | (_ :: _, d :: _) => Text.isWordChar d
      | _ => false) || hasWordAfterType t

/-- The type in a return text that may go on in prose: what stands before a comment, before the first
capitalised word and before a last bare word; `any` if words still follow each other. -/
def withoutProse (t : Text) : Text :=
  let bare := withoutComment t
  let plain := match Text.cutCapitalised? bare with
    | some (head, _) => Text.strip head
    | none => bare
  let cleaned := dropProseWord plain
  if hasWordAfterType cleaned then "any" else cleaned

end LuaTypings.TypeText
