import LuaTypings.Proofs.TypeText.SignatureText
import LuaTypings.Proofs.TypeText.TopParts
import LuaTypings.TypeText.Alias

/-!
# Object literals

The body of an alias may be an object literal: members between curly brackets, each of them a name and a type with a
colon between the two, with commas between the members and blanks around everything. Between two commas there may also
stand nothing, or a part without a colon, such as a word; these are no members. Whatever is nested in the types, the
literal is declared member by member in the order in which they are written (`declaredAlias_literalText`): it is split
at the commas that were written between its items (`filterMap_literalMember?_topParts`), and an item is cut at the colon
behind its name (`LiteralItem.literalMember?_toText`).
-/

namespace LuaTypings.TypeText

/-! ## What is written -/

/-- A text in its place, with the blanks around it. -/
structure Spaced where
  /-- The blanks in front of the text. -/
  before : Text
  /-- The text itself. -/
  text : Text
  /-- The blanks behind the text. -/
  after : Text
  /-- Nothing but blanks stands around the text. -/
  blank : (before ++ after).all Text.isBlank = true

/-- The text with its blanks. -/
def Spaced.toText (s : Spaced) : Text := s.before ++ s.text ++ s.after

/-- What can stand between two commas of an object literal. -/
inductive LiteralItem where
  /-- A member: its name is a word, and its type one that can stand in a list. -/
  | member (name type : Spaced) (isWord : Text.isWord name.text = true) (isListable : isListable type.text = true)
  /-- A part without a type: nothing at all, a word, or another text with no colon and no comma outside brackets. -/
  | filler (part : Text) (isPart : isBalanced part = true ∧ isUnbroken (· == ',') 0 part = true ∧ ':' ∉ part)

namespace LiteralItem

/-- The text of an item. -/
def toText : LiteralItem → Text
  | member name type _ _ => name.toText ++ ":" ++ type.toText
  | filler part _ => part

/-- What a member is declared as; an item that is no member is left out. -/
def declared? : LiteralItem → Option Text
  | member name type _ _ => some (name.text ++ ": " ++ declaredType type.text)
  | filler _ _ => none

end LiteralItem

/-- The object literal with these items. -/
def literalText (items : List LiteralItem) : Text :=
  "\x7b" ++ Text.join "," (items.map LiteralItem.toText) ++ "\x7d"

/-! ## Items -/

namespace Spaced

/-- Nothing but blanks stands in front of a text in its place and behind it. -/
theorem isBlank_around (s : Spaced) :
    (∀ c ∈ s.before, Text.isBlank c = true) ∧ ∀ c ∈ s.after, Text.isBlank c = true :=
  List.forall_mem_append.mp (List.all_eq_true.mp s.blank)

/-- The blanks around a text open no brackets and are no commas. -/
theorem isUnbroken_toText {s : Spaced} (h : isBalanced s.text = true ∧ isUnbroken (· == ',') 0 s.text = true) :
    isBalanced s.toText = true ∧ isUnbroken (· == ',') 0 s.toText = true := by
  obtain ⟨hbefore, hafter⟩ := s.isBlank_around
  rw [toText, List.append_assoc]
  exact isUnbroken_blanks_append hbefore comma_ne_of_isBlank (isUnbroken_append_blanks hafter comma_ne_of_isBlank h)

end Spaced

namespace LiteralItem

/-- An item closes its brackets, and no comma stands outside of them. -/
theorem isUnbroken_toText (item : LiteralItem) :
    isBalanced item.toText = true ∧ isUnbroken (· == ',') 0 item.toText = true := by
  cases item with
  | member name type hname htype =>
    have hword := isListable_iff.mp (isListable_of_isWord hname)
    obtain ⟨hbalanced, hunbroken⟩ := Spaced.isUnbroken_toText hword.2.2
    obtain ⟨hbalanced', hunbroken'⟩ := Spaced.isUnbroken_toText (isListable_iff.mp htype).2.2
    have hcolon : isBalanced ":".toList = true := by decide
    refine ⟨isBalanced_append (isBalanced_append hbalanced hcolon) hbalanced', ?_⟩
    rw [toText, List.append_assoc, isUnbroken_append_of_isBalanced hbalanced, isUnbroken_append_of_isBalanced hcolon,
      hunbroken, hunbroken']
    decide
  | filler part hpart => exact ⟨hpart.1, hpart.2.1⟩

/-- An item is read as the member that it is. -/
theorem literalMember?_toText (item : LiteralItem) : literalMember? (Text.strip item.toText) = item.declared? := by
  cases item with
  | member name type hname htype =>
    obtain ⟨hnameBefore, hnameAfter⟩ := name.isBlank_around
    obtain ⟨htypeBefore, htypeAfter⟩ := type.isBlank_around
    obtain ⟨hne, htrim, -, -⟩ := isListable_iff.mp htype
    have htrim' : Text.strip name.text = name.text := Text.strip_of_isWord hname
    -- The blanks at the two ends go, those around the colon stay.
    have hstrip : Text.strip (toText (member name type hname htype)) =
        (name.text ++ name.after) ++ ':' :: (type.before ++ type.text) := by
      have hends : toText (member name type hname htype) =
          name.before ++ (name.text ++ (name.after ++ ":".toList ++ type.before) ++ type.text) ++ type.after := by
        simp [toText, Spaced.toText]
      rw [hends, Text.strip_append_blanks htypeAfter, Text.strip_blanks_append hnameBefore,
        Text.strip_append_append htrim' htrim (Text.isWord_iff.mp hname).1 hne]
      simp
    have hcolon : ':' ∉ name.text ++ name.after := by
      rw [List.mem_append, not_or]
      refine ⟨Text.not_mem_of_isWord hname (by decide), fun hmem => ?_⟩
      exact absurd (hnameAfter ':' hmem) (by decide)
    rw [literalMember?, hstrip, Text.cutAtChar_append_cons hcolon]
    simp only [Text.strip_append_blanks hnameAfter, Text.strip_blanks_append htypeBefore, htrim, htrim']
    rfl
  | filler part hpart =>
    have hcolon : ':' ∉ Text.strip part := fun hmem => hpart.2.2 ((Text.isInfix_strip part).subset hmem)
    rw [toText, literalMember?, Text.cutAtChar_of_not_mem hcolon]
    rfl

end LiteralItem

/-! ## The literal -/

/-- An object literal is what stands between its brackets. -/
theorem literalBody?_bracketed (inner : Text) : literalBody? ("\x7b" ++ inner ++ "\x7d") = some inner := by
  have hstart : Text.dropStart? "\x7b".toList ("\x7b" ++ inner ++ "\x7d") = some (inner ++ "\x7d".toList) := by
    rw [Text.dropStart?_eq_some_iff, List.append_assoc]
  rw [literalBody?, hstart]
  exact Text.dropEnd?_append "\x7d".toList inner

/-- A text that is an object literal is what it encloses between brackets. -/
theorem eq_of_literalBody? {t inner : Text} (h : literalBody? t = some inner) : t = "\x7b" ++ inner ++ "\x7d" := by
  obtain ⟨front, hfront, hinner⟩ := Option.bind_eq_some_iff.mp h
  rw [Text.dropStart?_eq_some_iff.mp hfront, Text.dropEnd?_eq_some_iff.mp hinner, List.append_assoc]

/-- An object literal is trimmed. -/
theorem strip_bracketed (inner : Text) : Text.strip ("\x7b" ++ inner ++ "\x7d") = "\x7b" ++ inner ++ "\x7d" :=
  Text.strip_append_append (by decide) (by decide) (by decide) (by decide)

/-- The members of an object literal are those of its items. -/
theorem filterMap_literalMember?_topParts (items : List LiteralItem) :
    (topParts ',' (Text.join "," (items.map LiteralItem.toText))).filterMap literalMember? =
      items.filterMap LiteralItem.declared? := by
  cases items with
  | nil => rfl
  | cons item items =>
    have hpieces : segments (· == ',') 0 (Text.join "," ((item :: items).map LiteralItem.toText)) =
        (item :: items).map LiteralItem.toText :=
      segments_join_of_isBalanced (c := ',') (by decide)
        (List.forall_mem_map (l := item :: items).mpr fun other _ => other.isUnbroken_toText)
    -- A part without text is no member, so it makes no difference that such parts are left out.
    have hempty : ∀ part : Text,
        (if (!part.isEmpty) = true then literalMember? part else none) = literalMember? part := by
      intro part
      cases part <;> rfl
    rw [topParts, topPartsBy, hpieces, List.filterMap_filter, List.map_map, List.filterMap_map]
    refine List.filterMap_congr fun other _ => ?_
    rw [Function.comp_apply, hempty]
    exact other.literalMember?_toText

/-- Members whose types hold colons, commas and bars of their own, with nothing and a word between them. -/
def nestedMembers : List LiteralItem :=
  [.member ⟨"  ", "hp", " ", by decide⟩ ⟨" ", "integer", "", by decide⟩ (by decide) (by decide),
    .member ⟨"\t", "cb", "", by decide⟩ ⟨" ", "fun(a: A, b: K|V): table<K, V>", "", by decide⟩ (by decide)
      (by decide),
    .filler "" (by decide), .filler " note " (by decide),
    .member ⟨"", "pos", "\t", by decide⟩ ⟨"\n", "\x7b x: X, y: Y \x7d", " ", by decide⟩ (by decide) (by decide)]

/-- **Object literals.** An object literal with a member is declared member by member, in their order and each of them
once, with the declared types of the members; empty parts and parts without a type are left out. -/
theorem declaredAlias_literalText (items : List LiteralItem) (hmember : items.filterMap LiteralItem.declared? ≠ []) :
    declaredAlias (literalText items) =
      "\x7b " ++ Text.join "; " (items.filterMap LiteralItem.declared?) ++ " \x7d" := by
  have hparts : (topParts ',' (Text.strip (Text.join "," (items.map LiteralItem.toText)))).filterMap literalMember? =
      items.filterMap LiteralItem.declared? := by
    rw [topParts, topPartsBy_strip]
    exact filterMap_literalMember?_topParts items
  -- Where there is a member, there is more than blanks between the brackets.
  have hbody : Text.strip (Text.join "," (items.map LiteralItem.toText)) ≠ [] := by
    intro hnil
    rw [hnil] at hparts
    exact hmember hparts.symm
  rw [declaredAlias, literalText, strip_bracketed]
  simp only [literalBody?_bracketed, renderLiteral, List.isEmpty_iff, hbody, if_false, hparts]

/-- A function and a literal within a literal are single members, and an empty item and one without a colon are none. -/
theorem declaredAlias_literalText_nested :
    literalText nestedMembers =
        "\x7b  hp : integer,\tcb: fun(a: A, b: K|V): table<K, V>,, note ,pos\t:\n\x7b x: X, y: Y \x7d \x7d" ∧
      nestedMembers.filterMap LiteralItem.declared? ≠ [] ∧
      declaredAlias (literalText nestedMembers) =
        "\x7b hp: number; cb: (this: void, a: A, b: K | V) => Record<K, V>; pos: \x7b x: X, y: Y \x7d \x7d" :=
  ⟨by decide, by decide, (declaredAlias_literalText nestedMembers (by decide)).trans (by decide +kernel)⟩

end LuaTypings.TypeText
