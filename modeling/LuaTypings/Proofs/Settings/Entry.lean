import Mathlib.Data.List.Basic
import LuaTypings.Settings

/-!
# An entry of the modules

An entry is read when it is a mapping with a name and a file, and no number that is taken for a text has too many digits
(`IsReadable`). Then it gives its module (`moduleOf_of_isReadable`). Any other entry stops the reading, with its index
(`EntryStopsWith.moduleOf_eq`): a malformed one is a fault of the settings, a number with too many digits is none.
-/

namespace LuaTypings.Settings

open Yaml (Scalar Value)

/-! ## Entries -/

/-- A value has a text: a string, or the text of a number. -/
def HasText (t : Text) (v : Value) : Prop :=
  v = .scalar (.string t) ∨ v = .scalar (.fraction t) ∨ ∃ n, v = .scalar (.whole n) ∧ t = Text.ofInt n

/-- An entry gives a text at a key. -/
def GivesText (key t : Text) (entry : Value) : Prop :=
  ∃ pairs v, entry = .mapping pairs ∧ Yaml.lookup key pairs = some v ∧ HasText t v

/-- An entry has a name and a file, neither of them empty. -/
def IsComplete (entry : Value) : Prop :=
  ∃ name sourceFile, GivesText "name" name entry ∧ name ≠ [] ∧ GivesText "file" sourceFile entry ∧ sourceFile ≠ []

/-- No two of the entries have the same name. -/
def HaveDifferentNames (entries : List Value) : Prop :=
  entries.Pairwise fun entry other => ∀ name, ¬ (GivesText "name" name entry ∧ GivesText "name" name other)

/-- A value is a whole number with too many digits for a text. -/
def IsLongNumber (v : Value) : Prop := ∃ n, v = .scalar (.whole n) ∧ Text.isTooLong n = true

/-- An entry has a number with too many digits at a key. -/
def GivesLongNumber (key : Text) (entry : Value) : Prop :=
  ∃ pairs v, entry = .mapping pairs ∧ Yaml.lookup key pairs = some v ∧ IsLongNumber v

/-- An entry has a list with such a number at a key. -/
def ListsLongNumber (key : Text) (entry : Value) : Prop :=
  ∃ pairs items, entry = .mapping pairs ∧ Yaml.lookup key pairs = some (.list items) ∧ ∃ item ∈ items, IsLongNumber item

/-- An entry is stopped at by a number with too many digits. The name and the file are taken for texts in every mapping, the
rest only if both are there. -/
def StopsAtNumber (entry : Value) : Prop :=
  GivesLongNumber "name" entry ∨ GivesLongNumber "file" entry ∨
    IsComplete entry ∧ (GivesLongNumber "main_export" entry ∨ ListsLongNumber "filter_classes" entry)

/-- An entry can be read. -/
def IsReadable (entry : Value) : Prop := IsComplete entry ∧ ¬ StopsAtNumber entry

/-- A module is the one that an entry gives. -/
structure IsModuleOf (entry : Value) (m : ModuleSpec) : Prop where
  name : GivesText "name" m.name entry
  name_ne : m.name ≠ []
  sourceFile : GivesText "file" m.sourceFile entry
  sourceFile_ne : m.sourceFile ≠ []
  mainExport : ∀ t, m.mainExport = some t ↔ GivesText "main_export" t entry
  rest : ∃ pairs, entry = .mapping pairs ∧ textsOf (Yaml.lookup "filter_classes" pairs) = .ok m.classFilter ∧
    m.declareGlobal = saysYes (Yaml.lookup "declare_global_var" pairs)

variable {key t name : Text} {entry : Value} {m : ModuleSpec} {index : Nat}

/-- A value has one text at most. -/
theorem HasText.eq {other : Text} {v : Value} (h : HasText t v) (hother : HasText other v) : t = other := by
  rcases h with rfl | rfl | ⟨n, rfl, rfl⟩ <;> rcases hother with h | h | ⟨k, h, rfl⟩ <;> cases h <;> rfl

/-- An entry gives one text at most at a key. -/
theorem GivesText.eq {other : Text} (h : GivesText key t entry) (hother : GivesText key other entry) : t = other := by
  obtain ⟨pairs, v, rfl, hv, h⟩ := h
  obtain ⟨_, _, ⟨⟩, hv', hother⟩ := hother
  obtain rfl := Option.some.inj (hv.symm.trans hv')
  exact h.eq hother

/-- The module of an entry has its name. -/
theorem IsModuleOf.name_eq (h : IsModuleOf entry m) (hname : GivesText "name" name entry) : m.name = name :=
  h.name.eq hname

/-- The entry of a module is complete. -/
theorem IsModuleOf.isComplete (h : IsModuleOf entry m) : IsComplete entry :=
  ⟨m.name, m.sourceFile, h.name, h.name_ne, h.sourceFile, h.sourceFile_ne⟩

/-! ## Texts of entries -/

/-- A number with too many digits stops the reading of a text, and any other value gives the text that it has. -/
theorem textOf?_some (v : Value) :
    (IsLongNumber v ∧ textOf? (some v) = .error .tooManyDigits) ∨
      ¬ IsLongNumber v ∧ ∃ found, textOf? (some v) = .ok found ∧ ∀ t, found = some t ↔ HasText t v := by
  unfold textOf? IsLongNumber HasText
  split
  · rename_i t h
    cases h
    exact .inr ⟨by simp, _, rfl, by simp⟩
  · rename_i t h
    cases h
    exact .inr ⟨by simp, _, rfl, by simp⟩
  · rename_i n h
    cases h
    split
    · rename_i hlong
      exact .inl ⟨⟨n, rfl, hlong⟩, rfl⟩
    · rename_i hshort
      exact .inr ⟨by simpa using hshort, _, rfl, by simp [eq_comm]⟩
  · exact .inr ⟨by simp_all, none, rfl, by simp_all⟩

/-- A number with too many digits at a key stops the reading of its text, and any other value gives the text that the
mapping gives. -/
theorem textOf?_lookup (key : Text) (pairs : List (Scalar × Value)) :
    (GivesLongNumber key (.mapping pairs) ∧ textOf? (Yaml.lookup key pairs) = .error .tooManyDigits) ∨
      ¬ GivesLongNumber key (.mapping pairs) ∧ ∃ found, textOf? (Yaml.lookup key pairs) = .ok found ∧
        ∀ t, found = some t ↔ GivesText key t (.mapping pairs) := by
  simp only [GivesLongNumber, GivesText, Value.mapping.injEq, exists_and_left, exists_eq_left']
  cases Yaml.lookup key pairs with
  | none => exact .inr ⟨by simp, none, rfl, by simp⟩
  | some v => simpa using textOf?_some v

/-- The text at a key that is not empty. -/
theorem nonEmptyTextOf?_lookup (key : Text) (pairs : List (Scalar × Value)) :
    (GivesLongNumber key (.mapping pairs) ∧ nonEmptyTextOf? (Yaml.lookup key pairs) = .error .tooManyDigits) ∨
      ¬ GivesLongNumber key (.mapping pairs) ∧ ∃ found, nonEmptyTextOf? (Yaml.lookup key pairs) = .ok found ∧
        ∀ t, found = some t ↔ GivesText key t (.mapping pairs) ∧ t ≠ [] := by
  unfold nonEmptyTextOf?
  rcases textOf?_lookup key pairs with ⟨hlong, hread⟩ | ⟨hshort, found, hread, hfound⟩
  · rw [hread]
    exact .inl ⟨hlong, rfl⟩
  · rw [hread]
    refine .inr ⟨hshort, _, rfl, fun t => ?_⟩
    rw [Text.nonEmpty?_eq_some_iff, hfound]

/-- The items of a list have texts, unless one of them is a number with too many digits. -/
theorem mapM_itemText? (items : List Value) :
    ((∃ item ∈ items, IsLongNumber item) ∧ items.mapM itemText? = .error .tooManyDigits) ∨
      (¬ ∃ item ∈ items, IsLongNumber item) ∧ ∃ texts, items.mapM itemText? = .ok texts := by
  have hitem : ∀ item, (IsLongNumber item ∧ itemText? item = .error .tooManyDigits) ∨
      ¬ IsLongNumber item ∧ ∃ found, itemText? item = .ok found := by
    intro item
    unfold itemText?
    split
    · exact .inr ⟨by simp [IsLongNumber], _, rfl⟩
    · rcases textOf?_some item with h | ⟨hshort, found, hfound, -⟩
      · exact .inl h
      · exact .inr ⟨hshort, found, hfound⟩
  induction items with
  | nil => exact .inr ⟨by simp, [], rfl⟩
  | cons item items ih =>
    rw [List.mapM_cons, List.exists_mem_cons_iff]
    rcases hitem item with ⟨hlong, hread⟩ | ⟨hshort, found, hread⟩
    · rw [hread]
      exact .inl ⟨.inl hlong, rfl⟩
    · rw [hread]
      rcases ih with ⟨hlong, hrest⟩ | ⟨hnone, texts, hrest⟩
      · refine .inl ⟨.inr hlong, ?_⟩
        simp only [hrest]
        rfl
      · refine .inr ⟨not_or.mpr ⟨hshort, hnone⟩, found :: texts, ?_⟩
        simp only [hrest]
        rfl

/-- The texts at a key are read, unless a number with too many digits is listed there. -/
theorem textsOf_lookup (key : Text) (pairs : List (Scalar × Value)) :
    (ListsLongNumber key (.mapping pairs) ∧ textsOf (Yaml.lookup key pairs) = .error .tooManyDigits) ∨
      ¬ ListsLongNumber key (.mapping pairs) ∧ ∃ texts, textsOf (Yaml.lookup key pairs) = .ok texts := by
  simp only [ListsLongNumber, Value.mapping.injEq, exists_and_left, exists_eq_left']
  unfold textsOf
  split
  · rename_i h
    exact .inr ⟨by simp [h], _, rfl⟩
  · rename_i h
    exact .inr ⟨by simp [h], _, rfl⟩
  · rename_i items h
    rw [h]
    simp only [Option.some.injEq, Value.list.injEq, exists_eq_left']
    rcases mapM_itemText? items with ⟨hlong, hread⟩ | ⟨hnone, texts, hread⟩
    · rw [hread]
      exact .inl ⟨hlong, rfl⟩
    · rw [hread]
      exact .inr ⟨hnone, _, rfl⟩
  · rename_i h
    exact .inr ⟨by simp_all, _, rfl⟩

/-! ## Reading entries -/

/-- An entry that is no mapping is reported as such. -/
theorem moduleOf_of_not_mapping (h : ∀ pairs, entry ≠ .mapping pairs) (index : Nat) :
    moduleOf index entry = .error (.settings (.moduleNotMapping index)) := by
  cases entry with
  | scalar s => rfl
  | list items => rfl
  | mapping pairs => exact absurd rfl (h pairs)

/-- A mapping stops the reading at a number, is read as its module, or is reported as incomplete. -/
theorem moduleOf_mapping (index : Nat) (pairs : List (Scalar × Value)) :
    (StopsAtNumber (.mapping pairs) ∧ moduleOf index (.mapping pairs) = .error .tooManyDigits) ∨
      ¬ StopsAtNumber (.mapping pairs) ∧
        ((∃ m, moduleOf index (.mapping pairs) = .ok m ∧ IsModuleOf (.mapping pairs) m) ∨
          ¬ IsComplete (.mapping pairs) ∧
            moduleOf index (.mapping pairs) = .error (.settings (.moduleIncomplete index))) := by
  rw [moduleOf]
  rcases nonEmptyTextOf?_lookup "name" pairs with ⟨hlong, hread⟩ | ⟨hname, name?, hread, hname?⟩
  · rw [hread]
    exact .inl ⟨.inl hlong, rfl⟩
  rw [hread]
  rcases nonEmptyTextOf?_lookup "file" pairs with ⟨hlong, hread⟩ | ⟨hfile, sourceFile?, hread, hfile?⟩
  · rw [hread]
    exact .inl ⟨.inr (.inl hlong), rfl⟩
  rw [hread]
  by_cases hcomplete : IsComplete (.mapping pairs)
  · obtain ⟨name, sourceFile, hgiven, hname_ne, hgivenFile, hfile_ne⟩ := id hcomplete
    obtain rfl := (hname? name).mpr ⟨hgiven, hname_ne⟩
    obtain rfl := (hfile? sourceFile).mpr ⟨hgivenFile, hfile_ne⟩
    rcases textOf?_lookup "main_export" pairs with ⟨hlong, hread⟩ | ⟨hexport, mainExport, hread, hmain⟩
    · simp only [hread]
      exact .inl ⟨.inr (.inr ⟨hcomplete, .inl hlong⟩), rfl⟩
    rcases textsOf_lookup "filter_classes" pairs with ⟨hlong, hlist⟩ | ⟨hfilter, classFilter, hlist⟩
    · simp only [hread, hlist]
      exact .inl ⟨.inr (.inr ⟨hcomplete, .inr hlong⟩), rfl⟩
    refine .inr ⟨?_, .inl ⟨_, by simp only [hread, hlist]; rfl, ?_⟩⟩
    · rintro (h | h | ⟨-, h | h⟩)
      exacts [hname h, hfile h, hexport h, hfilter h]
    · exact ⟨hgiven, hname_ne, hgivenFile, hfile_ne, hmain, pairs, rfl, hlist, rfl⟩
  · refine .inr ⟨?_, .inr ⟨hcomplete, ?_⟩⟩
    · rintro (h | h | ⟨h, -⟩)
      exacts [hname h, hfile h, hcomplete h]
    · cases name? with
      | none => rfl
      | some name =>
        cases sourceFile? with
        | none => rfl
        | some sourceFile =>
          obtain ⟨hgiven, hname_ne⟩ := (hname? name).mp rfl
          obtain ⟨hgivenFile, hfile_ne⟩ := (hfile? sourceFile).mp rfl
          exact absurd ⟨name, sourceFile, hgiven, hname_ne, hgivenFile, hfile_ne⟩ hcomplete

/-- What stops the reading of an entry with an index. -/
inductive EntryStopsWith (index : Nat) (entry : Value) : LoadError → Prop where
  /-- It is no mapping. -/
  | notMapping (h : ∀ pairs, entry ≠ .mapping pairs) : EntryStopsWith index entry (.settings (.moduleNotMapping index))
  /-- It lacks its name or its file. -/
  | incomplete {pairs : List (Scalar × Value)} (hentry : entry = .mapping pairs) (hshort : ¬ StopsAtNumber entry)
      (h : ¬ IsComplete entry) : EntryStopsWith index entry (.settings (.moduleIncomplete index))
  /-- A number in it has too many digits. -/
  | tooManyDigits (h : StopsAtNumber entry) : EntryStopsWith index entry .tooManyDigits

variable {error : LoadError}

/-- An entry that stops the reading cannot be read. -/
theorem EntryStopsWith.not_isReadable (h : EntryStopsWith index entry error) : ¬ IsReadable entry := by
  rintro ⟨hcomplete, hshort⟩
  cases h with
  | notMapping h =>
    obtain ⟨_, _, ⟨pairs, _, hpairs, -⟩, -⟩ := hcomplete
    exact h pairs hpairs
  | incomplete _ _ h => exact h hcomplete
  | tooManyDigits h => exact hshort h

/-- What stops the reading of an entry is what the reading answers. -/
theorem EntryStopsWith.moduleOf_eq (h : EntryStopsWith index entry error) : moduleOf index entry = .error error := by
  cases h with
  | notMapping h => exact moduleOf_of_not_mapping h index
  | @incomplete pairs hentry hshort h =>
    subst hentry
    rcases moduleOf_mapping index pairs with ⟨hstop, -⟩ | ⟨-, ⟨m, -, hm⟩ | ⟨-, hread⟩⟩
    · exact absurd hstop hshort
    · exact absurd hm.isComplete h
    · exact hread
  | tooManyDigits h =>
    have hmapping : ∃ pairs, entry = .mapping pairs := by
      rcases h with ⟨pairs, _, hpairs, -⟩ | ⟨pairs, _, hpairs, -⟩ | ⟨⟨_, _, ⟨pairs, _, hpairs, -⟩, -⟩, -⟩ <;>
        exact ⟨pairs, hpairs⟩
    obtain ⟨pairs, rfl⟩ := hmapping
    exact ((moduleOf_mapping index pairs).resolve_right fun hnot => hnot.1 h).2

/-- An entry stops the reading, or it can be read and is read as its module. -/
theorem stopsWith_or_moduleOf (index : Nat) (entry : Value) :
    (∃ error, EntryStopsWith index entry error) ∨
      IsReadable entry ∧ ∃ m, moduleOf index entry = .ok m ∧ IsModuleOf entry m := by
  by_cases hmapping : ∀ pairs, entry ≠ .mapping pairs
  · exact .inl ⟨_, .notMapping hmapping⟩
  · push Not at hmapping
    obtain ⟨pairs, rfl⟩ := hmapping
    rcases moduleOf_mapping index pairs with ⟨hstop, -⟩ | ⟨hshort, ⟨m, h, hm⟩ | ⟨hnot, -⟩⟩
    · exact .inl ⟨_, .tooManyDigits hstop⟩
    · exact .inr ⟨⟨hm.isComplete, hshort⟩, m, h, hm⟩
    · exact .inl ⟨_, .incomplete rfl hshort hnot⟩

/-- An entry that can be read is read as its module. -/
theorem moduleOf_of_isReadable (h : IsReadable entry) (index : Nat) :
    ∃ m, moduleOf index entry = .ok m ∧ IsModuleOf entry m :=
  ((stopsWith_or_moduleOf index entry).resolve_left fun ⟨_, hstop⟩ => hstop.not_isReadable h).2

end LuaTypings.Settings
