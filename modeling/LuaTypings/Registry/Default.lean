import LuaTypings.Registry.Basic

/-!
# The built-in registry

The modules that are generated when no configuration names any.
-/

namespace LuaTypings.Registry

/-- A module with its own file and export. -/
private def entry (name sourceFile : String) (mainExport : Option String) : ModuleSpec :=
  ⟨name.toList, sourceFile.toList, mainExport.map String.toList, [], false⟩

/-- A module of a file that it shares, which keeps one class and those named after it. -/
private def shared (name sourceFile mainClass : String) : ModuleSpec :=
  { entry name sourceFile (some mainClass) with
    classFilter := [mainClass.toList, mainClass.toList ++ "_*".toList] }

/-- A module whose file has the path of the module and whose export has its last name. -/
private def inFolder (folder name : String) : ModuleSpec :=
  ⟨folder.toList ++ name.toList, folder.toList ++ name.toList ++ ".lua".toList, some name.toList, [], false⟩

/-- A module that is available everywhere and can be imported too. -/
private def everywhere (name : String) : ModuleSpec :=
  { entry name (name ++ ".lua") (some name) with declareGlobal := true }

/-- The modules of the geometry. -/
def geometryModules : List ModuleSpec :=
  [entry "common/geometry/vector_2" "common/geometry/vec2.lua" (some "vec2"),
   entry "common/geometry/vector_3" "common/geometry/vec3.lua" (some "vec3"),
   shared "common/geometry/circle" "common/geometry/geometry.lua" "circle",
   shared "common/geometry/rectangle" "common/geometry/geometry.lua" "rectangle",
   shared "common/geometry/cone" "common/geometry/geometry.lua" "cone"]

/-- The modules that the others build on. -/
def baseModules : List ModuleSpec :=
  [inFolder "common/" "color",
   entry "common/enums" "common/enums.lua" none,
   inFolder "common/" "unit_manager",
   inFolder "common/" "buff_db",
   inFolder "common/" "spell_attributes",
   inFolder "common/" "talents_id",
   inFolder "common/" "wow_api_clone",
   inFolder "common/" "ow_menu_api",
   { inFolder "common/" "izi_sdk" with mainExport := some "izi_api".toList }]

/-- The modules of whole services. -/
def serviceModules : List ModuleSpec :=
  List.map (inFolder "common/modules/")
    ["buff_manager", "settings_manager", "spell_queue", "spell_prediction", "combat_forecast", "profiler",
     "health_prediction", "target_selector"]

/-- The modules of helpers. -/
def helperModules : List ModuleSpec :=
  List.map (inFolder "common/utility/")
    ["plugin_helper", "control_panel_helper", "unit_helper", "spell_helper", "key_helper",
     "auto_attack_helper", "cooldown_tracker", "dungeons_helper", "evade_helper", "fish_helper",
     "graphics_helper", "inventory_helper", "kick_external_filters_helper",
     "dispel_external_filters_helper", "movement_handler", "pet_handler", "pvp_helper", "simple_movement",
     "ui_buttons_info", "wigs_tracker", "assets_helper", "icons_helper", "spell_sequence_helper",
     "coords_helper"]

/-- The modules of the core. -/
def coreModules : List ModuleSpec :=
  [everywhere "menu", everywhere "core", entry "game_object" "game_object.lua" (some "game_object")]

/-- All built-in modules, in order. -/
def builtInModules : List ModuleSpec :=
  geometryModules ++ baseModules ++ serviceModules ++ helperModules ++ coreModules

/-- The names of the built-in modules are distinct. -/
theorem builtInModules_nodup : (builtInModules.map (·.name)).Nodup := by
  simp only [builtInModules, geometryModules, baseModules, serviceModules, helperModules, coreModules,
    entry, shared, inFolder, everywhere, List.map_cons, List.map_nil, List.cons_append, List.nil_append]
  repeat rw [String.toList_ofList]
  -- Read as numbers in base 256, the names are compared without walking their common folders again.
  refine List.Pairwise.of_map (S := (· ≠ ·)) (List.foldl (fun n c => 256 * n + c.toNat) 0)
    (fun _ _ => ne_of_apply_ne _) ?_
  decide +kernel

/-- The built-in registry. -/
def builtIn : Registry := ⟨builtInModules, builtInModules_nodup⟩

end LuaTypings.Registry
