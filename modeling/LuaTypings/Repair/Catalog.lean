import LuaTypings.Repair.Basic

/-!
# Known losses

The repairs of the modules whose annotations are known to lose something. Every other module's declaration
stays as it is.
-/

namespace LuaTypings.Repair

/-- Names as texts. -/
private def names (list : List String) : List Text := list.map String.toList

/-- The methods whose tuples of returns are followed by prose, with the types they return. -/
def tupleFamilies : List TupleFamily :=
  [⟨names
      ["is_cc", "isCC", "crowd_controlled", "isCrowdControlled", "is_cc_weak", "isWeakCC", "weak_cc",
       "is_rooted", "rooted", "isRooted", "is_stunned", "stunned", "isStunned", "is_feared", "feared",
       "isFeared", "is_sapped", "sapped", "isSapped", "is_silenced", "silenced", "isSilenced",
       "is_cycloned", "cycloned", "isCycloned", "is_disarmed", "disarmed", "isDisarmed",
       "is_disoriented", "isDisorient", "isDisoriented", "is_incap", "is_incapacitated",
       "isIncapacitated", "immune_cc", "isCCImmune"],
     names ["boolean", "number", "number", "boolean", "boolean"]⟩,
   ⟨names ["get_cc_reduction", "cc_reduction", "getCCReduce", "getCCReduction"],
     names ["number", "number", "number"]⟩,
   ⟨names ["is_slowed", "isSlowed", "slowed"], names ["boolean", "number", "number"]⟩,
   ⟨names ["get_slow", "slow_mult", "getSlow"], names ["number", "number"]⟩,
   ⟨names ["is_slow_immune", "slow_immune", "isSlowImmune"], names ["boolean", "number"]⟩,
   ⟨names ["get_damage_reduction", "getDRPct", "dmg_reduction", "dmgRed", "getDamageReduction"],
     names ["number", "number", "number"]⟩,
   ⟨names ["isImmune", "isDamageImmune", "immune_dmg"], names ["boolean", "number", "number"]⟩]

/-- The methods that register a handler of one event. -/
def eventHandlerNames : List Text :=
  names
    ["on_buff_gain", "on_buff_lose", "on_debuff_gain", "on_debuff_lose", "on_combat_start",
     "on_combat_finish", "on_spell_begin", "on_spell_success", "on_spell_cancel"]

/-- The parameter of a handler that is given the event. -/
def eventCallback : Text := "cb: (this: void, ev: any) => void"

/-- The repairs of the module with the event handlers and the crowd-control methods. -/
def sdkRepairs : List Repair :=
  [.functionUnions (names ["adv_condition", "vec2", "vec3", "circle", "rectangle", "cone"]),
   .literal "skip_back?: boolean validated in is_castable_to_unit;" "skip_back?: boolean;" none,
   .literal "is_spell_in_range(this: game_object, spell: number | izi_spell | \x7bid:fun(self):integer\x7d): boolean;"
     "is_spell_in_range(this: game_object, spell: number | izi_spell | \x7b id: (this: any) => number \x7d): boolean;"
     none,
   .eventHandlers eventHandlerNames eventCallback "cb",
   .eventHandlers (names ["on_key_release"])
     "key: number | string, cb: (this: void, key: number | string) => void" "key",
   .literal "after(this: void, seconds: number, fn: (this: void) => void): (this: void) => void;"
     "after(this: void, seconds: number, fn: (this: void) => void): () => void;" none,
   .tupleReturns tupleFamilies]

/-- The repairs of the menu module, whose option tables are cut at their first comma. -/
def menuRepairs : List Repair :=
  [.literal "opts?: \x7b):" "opts?: object):" none, .literal "opts?: \x7b, " "opts?: object, " none]

/-- The repair of the kick filters, where an alternative became a parameter. -/
def kickFilterRepairs : List Repair := [.literal ", string|nil: any," "," none]

/-- The repairs of the spell sequences. -/
def spellSequenceRepairs : List Repair :=
  [.literal "game_object | (this: void) => game_object" "game_object | ((this: void) => game_object)" none,
   .stringValues]

/-- The modules with repairs. -/
def catalog : List (Text × List Repair) :=
  [("common/izi_sdk", sdkRepairs), ("common/ow_menu_api", menuRepairs),
   ("common/utility/kick_external_filters_helper", kickFilterRepairs),
   ("common/utility/spell_sequence_helper", spellSequenceRepairs)]

/-- Makes the repairs known for a module. -/
def applyKnown (moduleName t : Text) : Text := applyAll ((catalog.lookup moduleName).getD []) t

end LuaTypings.Repair
