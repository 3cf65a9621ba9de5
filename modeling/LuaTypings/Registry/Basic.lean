import LuaTypings.ModuleSpec

/-!
# Registries

A registry lists the modules that are generated, in order and under distinct names.
-/

namespace LuaTypings

/-- The modules to generate, no two of one name. -/
structure Registry where
  modules : List ModuleSpec
  names_nodup : (modules.map (·.name)).Nodup

/-- Why a registry has no answer. -/
inductive RegistryError where
  /-- Two modules have this name. -/
  | duplicate (name : Text)
  /-- No module has this name; these are known. -/
  | unknown (name : Text) (available : List Text)
  deriving DecidableEq, Repr

/-- The words for a registry's error. -/
def RegistryError.message : RegistryError → Text
  | duplicate name => "Duplicate module in registry: " ++ name
  | unknown name available =>
    "Unknown module: " ++ name ++ ". Available modules: " ++ Text.join ", " available

namespace Registry

/-- The first name that occurs a second time, where `seen` are the names before. -/
def firstRepeated? : (seen : List Text) → List ModuleSpec → Option Text
  | _, [] => none
  | seen, m :: rest => if m.name ∈ seen then some m.name else firstRepeated? (m.name :: seen) rest

/-- Without a repeated name, the names are distinct and none of them was seen before. -/
theorem nodup_of_firstRepeated? {seen : List Text} {modules : List ModuleSpec}
    (h : firstRepeated? seen modules = none) :
    (modules.map (·.name)).Nodup ∧ ∀ m ∈ modules, m.name ∉ seen := by
  induction modules generalizing seen with
  | nil => simp
  | cons m rest ih =>
    unfold firstRepeated? at h
    split at h
    · simp at h
    · next fresh =>
      obtain ⟨distinct, unseen⟩ := ih h
      refine ⟨List.nodup_cons.2 ⟨?_, distinct⟩, ?_⟩
      · intro found
        obtain ⟨other, mem, same⟩ := List.mem_map.1 found
        exact unseen other mem (same ▸ List.mem_cons_self)
      · intro other mem
        rcases List.mem_cons.1 mem with rfl | mem
        · exact fresh
        · exact fun seen' => unseen other mem (List.mem_cons_of_mem _ seen')

/-- The registry of a list of modules, unless a name occurs in it twice. -/
def ofModules (modules : List ModuleSpec) : Except RegistryError Registry :=
  match h : firstRepeated? [] modules with
  | some name => .error (.duplicate name)
  | none => .ok ⟨modules, (nodup_of_firstRepeated? h).1⟩

/-- The names of the modules, in order. -/
def names (r : Registry) : List Text := r.modules.map (·.name)

/-- How many modules there are. -/
def size (r : Registry) : Nat := r.modules.length

/-- Whether a module has the name. -/
def contains (r : Registry) (name : Text) : Bool := r.modules.any (·.name = name)

/-- The module of a name. -/
def get (r : Registry) (name : Text) : Except RegistryError ModuleSpec :=
  match r.modules.find? (·.name = name) with
  | some m => .ok m
  | none => .error (.unknown name r.names)

/-- All modules in order, or only the one of a name. -/
def select (r : Registry) : Option Text → Except RegistryError (List ModuleSpec)
  | none => .ok r.modules
  | some name => (r.get name).map ([·])

end Registry

end LuaTypings
