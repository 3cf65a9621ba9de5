import Mathlib.Data.List.Nodup
import LuaTypings.Model.Build

/-!
# Adding what is new

What has a new name is added at the end of its kind, and nothing else changes: a member of a class
(`ClassModel.putDataField_of_new`, `ClassModel.putMethod_of_new`), a class (`Model.onClass_of_new`) and an alias
(`Model.setAlias_of_new`). So a class whose members have different names is what its members make of an empty class
(`ClassModel.foldl_members`).
-/

namespace LuaTypings

/-! ## Members -/

namespace ClassModel

/-- The names of the members of a class. -/
def memberNames (c : ClassModel) : List Text := c.dataFields.map (·.name) ++ c.methods.map (·.name)

variable {c : ClassModel}

/-- A name is not in use exactly when it names no member. -/
theorem hasMember_eq_false_iff {name : Text} : c.hasMember name = false ↔ name ∉ c.memberNames := by
  have hmethod : c.methods.any (·.name = name) = false ↔ name ∉ c.methods.map (·.name) := by simp
  have hfield : c.dataFields.any (·.name = name) = false ↔ name ∉ c.dataFields.map (·.name) := by simp
  rw [hasMember, Bool.or_eq_false_iff, hmethod, hfield, memberNames, List.mem_append, not_or, and_comm]

/-- A data field of a new name is added at the end. -/
theorem putDataField_of_new {f : DataField} (h : f.name ∉ c.memberNames) :
    c.putDataField f = { c with dataFields := c.dataFields ++ [f] } := by
  rw [putDataField, hasMember_eq_false_iff.mpr h]
  rfl

/-- A method is inserted at the end when there is none of its name. -/
theorem insertMethod_of_new {method : Method} {methods : List Method} (h : method.name ∉ methods.map (·.name)) :
    insertMethod method methods = methods ++ [method] := by
  induction methods with
  | nil => rfl
  | cons first rest ih =>
    rw [List.map_cons, List.mem_cons, not_or] at h
    rw [insertMethod, if_neg (Ne.symm h.1), ih h.2, List.cons_append]

/-- A method of a new name is added at the end and takes no data field away. -/
theorem putMethod_of_new {method : Method} (h : method.name ∉ c.memberNames) :
    c.putMethod method = { c with methods := c.methods ++ [method] } := by
  rw [memberNames, List.mem_append, not_or] at h
  have hfields : c.dataFields.filter (·.name ≠ method.name) = c.dataFields := by
    rw [List.filter_eq_self]
    intro f hf
    have hne : f.name ≠ method.name := fun heq => h.1 (List.mem_map.mpr ⟨f, hf, heq⟩)
    simpa using hne
  rw [putMethod, insertMethod_of_new h.2, hfields]

/-- Index signatures are added at the end. -/
theorem foldl_putIndexSignature (c : ClassModel) (signatures : List IndexSignature) :
    signatures.foldl putIndexSignature c = { c with indexSignatures := c.indexSignatures ++ signatures } := by
  induction signatures generalizing c with
  | nil => simp
  | cons s signatures ih => simp [ih, putIndexSignature]

/-- Members of one kind that have different new names are added one behind the other, when each one is and only brings its
own name. -/
theorem foldl_of_new {α : Type} {name : α → Text} {put : ClassModel → α → ClassModel}
    (extend : ClassModel → List α → ClassModel) (hput : ∀ c x, name x ∉ c.memberNames → put c x = extend c [x])
    (hnil : ∀ c, extend c [] = c) (hcons : ∀ c x items, extend (extend c [x]) items = extend c (x :: items))
    (hnames : ∀ c x n, n ∈ (extend c [x]).memberNames → n ∈ c.memberNames ∨ n = name x) {items : List α}
    (hnodup : (items.map name).Nodup) (hnew : ∀ x ∈ items, name x ∉ c.memberNames) :
    items.foldl put c = extend c items := by
  induction items generalizing c with
  | nil => rw [hnil, List.foldl_nil]
  | cons x items ih =>
    rw [List.map_cons, List.nodup_cons] at hnodup
    rw [List.foldl_cons, hput c x (hnew x List.mem_cons_self), ih hnodup.2, hcons]
    -- The name that was just added is not that of a member to come.
    intro y hy hmem
    obtain hmem | heq := hnames c x _ hmem
    · exact hnew y (List.mem_cons_of_mem x hy) hmem
    · exact hnodup.1 (List.mem_map.mpr ⟨y, hy, heq⟩)

/-- Data fields of different new names are added at the end. -/
theorem foldl_putDataField {fields : List DataField} (hnodup : (fields.map (·.name)).Nodup)
    (hnew : ∀ f ∈ fields, f.name ∉ c.memberNames) :
    fields.foldl putDataField c = { c with dataFields := c.dataFields ++ fields } := by
  refine foldl_of_new (fun c fields => { c with dataFields := c.dataFields ++ fields })
    (fun c f => putDataField_of_new) (fun c => by simp) (fun c f fields => by simp) (fun c f n hmem => ?_) hnodup hnew
  simpa [memberNames, or_assoc, or_comm, or_left_comm] using hmem

/-- Methods of different new names are added at the end. -/
theorem foldl_putMethod {methods : List Method} (hnodup : (methods.map (·.name)).Nodup)
    (hnew : ∀ m ∈ methods, m.name ∉ c.memberNames) :
    methods.foldl putMethod c = { c with methods := c.methods ++ methods } := by
  refine foldl_of_new (fun c methods => { c with methods := c.methods ++ methods })
    (fun c m => putMethod_of_new) (fun c => by simp) (fun c m methods => by simp) (fun c m n hmem => ?_) hnodup hnew
  simpa [memberNames, or_assoc, or_comm, or_left_comm] using hmem

/-- A class is what its members make of an empty class, when their names differ. -/
theorem foldl_members (h : c.memberNames.Nodup) :
    c.methods.foldl putMethod
      (c.dataFields.foldl putDataField (c.indexSignatures.foldl putIndexSignature (.empty c.name))) = c := by
  obtain ⟨hfields, hmethods, hapart⟩ := List.nodup_append.mp h
  rw [foldl_putIndexSignature, foldl_putDataField hfields (by simp [memberNames, empty]), foldl_putMethod hmethods]
  · simp [empty]
  · intro m hm
    have hfield : m.name ∉ c.dataFields.map (·.name) := fun hmem =>
      hapart m.name hmem m.name (List.mem_map.mpr ⟨m, hm, rfl⟩) rfl
    simpa [memberNames, empty] using hfield

end ClassModel

/-! ## Classes and aliases -/

namespace Model

/-- The model with one more class at the end. -/
def withClass (m : Model) (c : ClassModel) : Model := { m with classes := m.classes ++ [c] }

/-- The names of the classes with one more class. -/
theorem classNames_withClass (m : Model) (c : ClassModel) : (m.withClass c).classNames = m.classNames ++ [c.name] := by
  simp [withClass, classNames]

/-- The last class is the one that changes, when no class before it has its name. -/
theorem onClass_withClass {m : Model} {c : ClassModel} (h : c.name ∉ m.classNames)
    (change : ClassModel → ClassModel) : (m.withClass c).onClass c.name change = m.withClass (change c) := by
  have hclasses : ∀ classes : List ClassModel, c.name ∉ classes.map (·.name) →
      updateClass c.name change (classes ++ [c]) = classes ++ [change c] := by
    intro classes hnew
    induction classes with
    | nil => exact if_pos rfl
    | cons d classes ih =>
      rw [List.map_cons, List.mem_cons, not_or] at hnew
      rw [List.cons_append, updateClass, if_neg (Ne.symm hnew.1), ih hnew.2, List.cons_append]
  rw [onClass, withClass, withClass, hclasses m.classes h]

/-- A class of a new name starts empty at the end. -/
theorem onClass_of_new {m : Model} {name : Text} (h : name ∉ m.classNames) (change : ClassModel → ClassModel) :
    m.onClass name change = m.withClass (change (.empty name)) := by
  have hclasses : ∀ classes : List ClassModel, name ∉ classes.map (·.name) →
      updateClass name change classes = classes ++ [change (.empty name)] := by
    intro classes hnew
    induction classes with
    | nil => rfl
    | cons d classes ih =>
      rw [List.map_cons, List.mem_cons, not_or] at hnew
      rw [updateClass, if_neg (Ne.symm hnew.1), ih hnew.2, List.cons_append]
  rw [onClass, withClass, hclasses m.classes h]

/-- An alias of a new name is added at the end. -/
theorem setAlias_of_new {a : Alias} {aliases : List Alias} (h : a.name ∉ aliases.map (·.name)) :
    setAlias a aliases = aliases ++ [a] := by
  induction aliases with
  | nil => rfl
  | cons b aliases ih =>
    rw [List.map_cons, List.mem_cons, not_or] at h
    rw [setAlias, if_neg (Ne.symm h.1), ih h.2, List.cons_append]

end Model

end LuaTypings
