import Mathlib.Data.List.Forall2
import LuaTypings.Host.Workspace
import LuaTypings.Proofs.Registry.Names
import LuaTypings.Proofs.Settings.Entry

/-!
# Modules of a configuration

Loading first takes from the host all that a configuration has beside its modules (`Surroundings`), and the modules decide
the rest (`load_eq`). What stops them is told by the first entry that cannot be read, and only if there is none by the first
one whose name came before (`StopsWith`). Modules that nothing stops make a registry with one module for each entry
(`stopsWith_or_registryOf`, `load_modules`).
-/

namespace LuaTypings.Settings

open Yaml (Scalar Value)

variable {entry : Value} {m : ModuleSpec} {entries : List Value} {modules : List ModuleSpec} {name : Text} {index : Nat}
  {error : LoadError}

/-! ## Reading entries -/

/-- Entries that can be read are read as their modules, one for each. -/
theorem modulesOf_of_isReadable (h : ∀ entry ∈ entries, IsReadable entry) (index : Nat) :
    ∃ modules, modulesOf index entries = .ok modules ∧ List.Forall₂ IsModuleOf entries modules := by
  induction entries generalizing index with
  | nil => exact ⟨[], rfl, .nil⟩
  | cons entry entries ih =>
    obtain ⟨hentry, hrest⟩ := List.forall_mem_cons.mp h
    obtain ⟨m, hm, hmodule⟩ := moduleOf_of_isReadable hentry index
    obtain ⟨modules, hmodules, hall⟩ := ih hrest (index + 1)
    refine ⟨m :: modules, ?_, .cons hmodule hall⟩
    rw [modulesOf, hm]
    simp only [hmodules]
    rfl

/-- Behind entries that can be read one that cannot decides, whatever follows it. -/
theorem modulesOf_append {front back : List Value} (hfront : ∀ e ∈ front, IsReadable e)
    (h : moduleOf (index + front.length) entry = .error error) :
    modulesOf index (front ++ entry :: back) = .error error := by
  induction front generalizing index with
  | nil =>
    rw [List.nil_append, modulesOf]
    rw [List.length_nil, Nat.add_zero] at h
    rw [h]
    rfl
  | cons first front ih =>
    obtain ⟨hfirst, hrest⟩ := List.forall_mem_cons.mp hfront
    obtain ⟨m, hm, -⟩ := moduleOf_of_isReadable hfirst index
    have hindex : index + (front.length + 1) = index + 1 + front.length := by omega
    rw [List.length_cons, hindex] at h
    rw [List.cons_append, modulesOf, hm]
    simp only [ih hrest h]
    rfl

/-- Entries that cannot all be read have a first one that cannot. -/
theorem exists_first_unreadable (h : ¬ ∀ entry ∈ entries, IsReadable entry) :
    ∃ front entry back, entries = front ++ entry :: back ∧ (∀ e ∈ front, IsReadable e) ∧ ¬ IsReadable entry := by
  induction entries with
  | nil => simp at h
  | cons first rest ih =>
    by_cases hfirst : IsReadable first
    · obtain ⟨front, entry, back, rfl, hfront, hentry⟩ := ih fun hrest => h (List.forall_mem_cons.mpr ⟨hfirst, hrest⟩)
      exact ⟨first :: front, entry, back, rfl, List.forall_mem_cons.mpr ⟨hfirst, hfront⟩, hentry⟩
    · exact ⟨[], first, rest, rfl, by simp, hfirst⟩

/-! ## Names of entries -/

/-- A list that goes with one that has a certain place has a place that goes with it. -/
theorem forall₂_append_cons {α β : Type} {R : α → β → Prop} {front back : List α} {a : α} {list : List β}
    (h : List.Forall₂ R (front ++ a :: back) list) :
    ∃ first b rest, list = first ++ b :: rest ∧ List.Forall₂ R front first ∧ R a b := by
  induction front generalizing list with
  | nil =>
    obtain ⟨b, rest, hb, -, rfl⟩ := List.forall₂_cons_left_iff.mp h
    exact ⟨[], b, rest, rfl, .nil, hb⟩
  | cons c front ih =>
    obtain ⟨d, rest, hd, hrest, rfl⟩ := List.forall₂_cons_left_iff.mp h
    obtain ⟨first, b, rest, rfl, hfirst, hb⟩ := ih hrest
    exact ⟨d :: first, b, rest, rfl, .cons hd hfirst, hb⟩

section Modules

variable (h : List.Forall₂ IsModuleOf entries modules)

include h

/-- A module has a name exactly when an entry gives it. -/
theorem mem_names_iff : name ∈ modules.map (·.name) ↔ ∃ entry ∈ entries, GivesText "name" name entry := by
  induction h with
  | nil => simp
  | cons hmodule _ ih =>
    rw [List.map_cons, List.mem_cons, ih, List.exists_mem_cons_iff]
    refine or_congr ⟨?_, fun hname => (hmodule.name_eq hname).symm⟩ Iff.rfl
    rintro rfl
    exact hmodule.name

/-- The names of modules are different exactly when those of their entries are. -/
theorem nodup_names_iff : (modules.map (·.name)).Nodup ↔ HaveDifferentNames entries := by
  induction h with
  | nil => simp [HaveDifferentNames]
  | cons hmodule hrest ih =>
    rw [List.map_cons, List.nodup_cons, ih, HaveDifferentNames, HaveDifferentNames, List.pairwise_cons,
      mem_names_iff hrest]
    refine and_congr ?_ Iff.rfl
    constructor
    · rintro hnew other hother name ⟨hname, hsame⟩
      exact hnew ⟨other, hother, hmodule.name_eq hname ▸ hsame⟩
    · rintro hdifferent ⟨other, hother, hname⟩
      exact hdifferent other hother _ ⟨hmodule.name, hname⟩

end Modules

/-! ## What stops the modules -/

/-- What the value of the modules stops with: the first entry that cannot be read tells it and, if there is none, the first
one whose name came before. -/
inductive StopsWith (v : Value) : LoadError → Prop where
  /-- The value is no list. -/
  | notList (h : ∀ entries, v ≠ .list entries) : StopsWith v (.settings .modulesNotList)
  /-- The first entry that cannot be read stops the reading. -/
  | entry {front back : List Value} {entry : Value} {error : LoadError} (hv : v = .list (front ++ entry :: back))
      (hfront : ∀ e ∈ front, IsReadable e) (h : EntryStopsWith front.length entry error) : StopsWith v error
  /-- All entries can be read, and one has the name of one before it, which is the first time that this happens. -/
  | duplicate {front back : List Value} {entry : Value} {name : Text} (hv : v = .list (front ++ entry :: back))
      (hreadable : ∀ e ∈ front ++ entry :: back, IsReadable e) (hfront : HaveDifferentNames front)
      (hname : GivesText "name" name entry) (hearlier : ∃ earlier ∈ front, GivesText "name" name earlier) :
      StopsWith v (.settings (.registry (.duplicate name)))

/-- The value of the modules is wrong: it is no list, an entry lacks its name or its file, or two have one name. -/
def IsWrong (v : Value) : Prop :=
  (∀ entries, v ≠ .list entries) ∨
    ∃ entries, v = .list entries ∧ ((∃ entry ∈ entries, ¬ IsComplete entry) ∨ ¬ HaveDifferentNames entries)

variable {v : Value}

/-- The modules of entries make the registry. -/
theorem registryOf_of_ok (h : modulesOf 0 entries = .ok modules) :
    registryOf (some (.list entries)) = (Registry.ofModules modules).mapError fun e => .settings (.registry e) := by
  rw [registryOf, h]
  rfl

/-- What stops the modules is what is answered. -/
theorem StopsWith.registryOf_eq (hv : v ≠ .scalar .null) (h : StopsWith v error) : registryOf (some v) = .error error := by
  cases h with
  | notList h =>
    unfold registryOf
    split <;> simp_all
  | @entry front back entry error hlist hfront h =>
    have hentries : modulesOf 0 (front ++ entry :: back) = .error error :=
      modulesOf_append hfront (by rw [Nat.zero_add]; exact h.moduleOf_eq)
    rw [hlist, registryOf, hentries]
    rfl
  | @duplicate front back entry name hlist hreadable hfront hname hearlier =>
    obtain ⟨modules, hmodules, hall⟩ := modulesOf_of_isReadable hreadable 0
    obtain ⟨first, m, rest, rfl, hfirst, hm⟩ := forall₂_append_cons hall
    obtain rfl := hm.name_eq hname
    have hrepeated : Registry.ofModules (first ++ m :: rest) = .error (.duplicate m.name) :=
      Registry.ofModules_eq_error_iff.mpr
        ⟨first, m, rest, rfl, (nodup_names_iff hfirst).mpr hfront, (mem_names_iff hfirst).mpr hearlier, rfl⟩
    rw [hlist, registryOf_of_ok hmodules, hrepeated]
    rfl

/-- Something stops the modules, or they are a list whose entries have one module each in the registry. -/
theorem stopsWith_or_registryOf (v : Value) :
    (∃ error, StopsWith v error) ∨
      ∃ entries r, v = .list entries ∧ registryOf (some v) = .ok r ∧ List.Forall₂ IsModuleOf entries r.modules := by
  by_cases hlist : ∀ entries, v ≠ .list entries
  · exact .inl ⟨_, .notList hlist⟩
  push Not at hlist
  obtain ⟨entries, rfl⟩ := hlist
  by_cases hreadable : ∀ entry ∈ entries, IsReadable entry
  · obtain ⟨modules, hmodules, hall⟩ := modulesOf_of_isReadable hreadable 0
    cases hr : Registry.ofModules modules with
    | error error =>
      obtain ⟨first, m, rest, rfl, hnodup, hmem, -⟩ := Registry.ofModules_eq_error_iff.mp hr
      obtain ⟨front, entry, back, rfl, hfirst, hm⟩ := forall₂_append_cons hall.flip
      have hfront := hfirst.flip
      exact .inl ⟨_, .duplicate rfl hreadable ((nodup_names_iff hfront).mp hnodup) hm.name
        ((mem_names_iff hfront).mp hmem)⟩
    | ok r =>
      refine .inr ⟨entries, r, rfl, ?_, ?_⟩
      · rw [registryOf_of_ok hmodules, hr]
        rfl
      · rwa [Registry.modules_of_ofModules hr]
  · obtain ⟨front, entry, back, rfl, hfront, hentry⟩ := exists_first_unreadable hreadable
    obtain ⟨error, hstop⟩ := (stopsWith_or_moduleOf front.length entry).resolve_right fun hread => hentry hread.1
    exact .inl ⟨error, .entry rfl hfront hstop⟩

/-- The modules are answered with an error exactly when that is what stops them. -/
theorem registryOf_eq_error_iff (hv : v ≠ .scalar .null) : registryOf (some v) = .error error ↔ StopsWith v error := by
  refine ⟨fun h => ?_, StopsWith.registryOf_eq hv⟩
  obtain ⟨other, hother⟩ | ⟨entries, r, -, hr, -⟩ := stopsWith_or_registryOf v
  · have hsame := h.symm.trans (hother.registryOf_eq hv)
    rwa [Except.error.inj hsame]
  · cases h.symm.trans hr

/-- What stops the modules is a fault of the settings or a number with too many digits. -/
theorem StopsWith.settings_or_tooManyDigits (h : StopsWith v error) :
    (∃ fault, error = .settings fault) ∨ error = .tooManyDigits := by
  cases h with
  | notList => exact .inl ⟨_, rfl⟩
  | entry _ _ h =>
    cases h with
    | notMapping => exact .inl ⟨_, rfl⟩
    | incomplete => exact .inl ⟨_, rfl⟩
    | tooManyDigits => exact .inr rfl
  | duplicate => exact .inl ⟨_, rfl⟩

/-- Modules that are stopped by a fault of the settings are wrong. -/
theorem StopsWith.isWrong {fault : SettingsFault} (h : StopsWith v (.settings fault)) : IsWrong v := by
  cases h with
  | notList h => exact .inl h
  | @entry front back entry _ hlist _ h =>
    refine .inr ⟨_, hlist, .inl ⟨entry, List.mem_append_right _ List.mem_cons_self, ?_⟩⟩
    cases h with
    | notMapping h =>
      rintro ⟨_, _, ⟨pairs, _, hpairs, -⟩, -⟩
      exact h pairs hpairs
    | incomplete _ _ h => exact h
  | duplicate hlist _ _ hname hearlier =>
    obtain ⟨earlier, hmem, hsame⟩ := hearlier
    refine .inr ⟨_, hlist, .inr fun hdifferent => ?_⟩
    exact (List.pairwise_append.mp hdifferent).2.2 earlier hmem _ List.mem_cons_self _ ⟨hsame, hname⟩

/-- Modules that make a registry are not wrong. -/
theorem not_isWrong_of_forall₂ (hlist : v = .list entries) {r : Registry}
    (hall : List.Forall₂ IsModuleOf entries r.modules) : ¬ IsWrong v := by
  subst hlist
  rintro (hlist | ⟨others, heq, ⟨entry, hmem, hnot⟩ | hsame⟩)
  · exact hlist entries rfl
  · obtain rfl := Value.list.inj heq
    obtain ⟨front, back, rfl⟩ := List.append_of_mem hmem
    obtain ⟨_, m, _, _, _, hm⟩ := forall₂_append_cons hall
    exact hnot hm.isComplete
  · obtain rfl := Value.list.inj heq
    exact hsame ((nodup_names_iff hall).mp r.names_nodup)

/-- A fault of the settings stops the modules exactly when they are wrong and no number is in the way. -/
theorem exists_stopsWith_settings_iff (hv : v ≠ .scalar .null) :
    (∃ fault, StopsWith v (.settings fault)) ↔ IsWrong v ∧ ¬ StopsWith v .tooManyDigits := by
  constructor
  · rintro ⟨fault, h⟩
    refine ⟨h.isWrong, fun hlong => ?_⟩
    cases (h.registryOf_eq hv).symm.trans (hlong.registryOf_eq hv)
  · rintro ⟨hwrong, hshort⟩
    obtain ⟨error, h⟩ | ⟨entries, r, hlist, -, hall⟩ := stopsWith_or_registryOf v
    · obtain ⟨fault, rfl⟩ | rfl := h.settings_or_tooManyDigits
      · exact ⟨fault, h⟩
      · exact absurd h hshort
    · exact absurd hwrong (not_isWrong_of_forall₂ hlist hall)

/-! ## Loading -/

/-- What a configuration has beside its modules: the directory of its file, the two directories that it gives, and the
entries of its files. -/
structure Surroundings where
  root : Path
  apiDirectory : Option Path
  outputDirectory : Option Path
  entries : List (Scalar × Value)

/-- The configuration with the modules that its entries give. -/
def Surroundings.settings (s : Surroundings) : Except LoadError Settings :=
  (registryOf (Yaml.lookup "modules" s.entries)).map (Settings.mk s.root s.apiDirectory s.outputDirectory)

/-- What is done at the end with a result is done behind each step on the way to it, when an error on the way is the end. -/
theorem bind_steps {m : Type → Type} [Monad m] [LawfulMonad m] {α β γ : Type} {step : m (Except LoadError α)}
    {next : Except LoadError α → m (Except LoadError β)} {all : Except LoadError α → m (Except LoadError γ)}
    {finish : β → Except LoadError γ}
    (hnext : ∀ e, next (.error e) = pure (.error e)) (hall : ∀ e, all (.error e) = pure (.error e))
    (hok : ∀ a, all (.ok a) = next (.ok a) >>= fun found => pure (found.bind finish)) :
    step >>= all = (step >>= next) >>= fun found => pure (found.bind finish) := by
  rw [bind_assoc]
  refine bind_congr fun answer => ?_
  cases answer with
  | error e =>
    rw [hnext, hall, pure_bind]
    rfl
  | ok a => exact hok a

section Loading

variable {m : Type → Type} [Monad m] [Host m]

/-- All that a configuration needs beside its modules, as the host gives it. -/
def surroundings (p : Path) (environment : Text → Option Text) : m (Except LoadError Surroundings) := do
  match ← filePath p with
  | .error e => return .error e
  | .ok file =>
    match ← readEntries file with
    | .error e => return .error e
    | .ok entries =>
      match ← readEntries (file.withName overlayFileName) with
      | .error e => return .error e
      | .ok localEntries =>
        let all := entries ++ localEntries
        match ← directoryOf file.parent environment all apiVariable "api_dir" with
        | .error e => return .error e
        | .ok api =>
          match ← directoryOf file.parent environment all outputVariable "output_dir" with
          | .error e => return .error e
          | .ok output => return .ok ⟨file.parent, api, output, all⟩

/-- Loading finds all the rest before the modules decide. -/
theorem load_eq [LawfulMonad m] (p : Path) (environment : Text → Option Text) :
    (load p environment : m (Except LoadError Settings)) = do
      let found ← surroundings p environment
      return found.bind Surroundings.settings := by
  refine bind_steps (m := m) (fun _ => rfl) (fun _ => rfl) fun file => ?_
  refine bind_steps (m := m) (fun _ => rfl) (fun _ => rfl) fun entries => ?_
  refine bind_steps (m := m) (fun _ => rfl) (fun _ => rfl) fun localEntries => ?_
  refine bind_steps (m := m) (fun _ => rfl) (fun _ => rfl) fun api => ?_
  refine bind_steps (m := m) (fun _ => rfl) (fun _ => rfl) fun output => ?_
  rw [pure_bind, Except.bind, Surroundings.settings]
  cases registryOf (Yaml.lookup "modules" (entries ++ localEntries)) <;> rfl

end Loading

/-- What stops the modules is what loading answers at last. -/
theorem settings_eq_error_iff {s : Surroundings} (hs : Yaml.lookup "modules" s.entries = some v)
    (hv : v ≠ .scalar .null) : s.settings = .error error ↔ StopsWith v error := by
  rw [← registryOf_eq_error_iff hv, Surroundings.settings, hs]
  cases registryOf (some v) with
  | error other => simp [Except.map]
  | ok r => exact iff_of_false nofun nofun

/-- What is loaded has the registry of the modules. -/
theorem registryOf_of_settings_eq_ok {s : Surroundings} (hs : Yaml.lookup "modules" s.entries = some v)
    {found : Settings} (h : s.settings = .ok found) : registryOf (some v) = .ok found.registry := by
  rw [Surroundings.settings, hs] at h
  cases hr : registryOf (some v) with
  | error fault =>
    rw [hr] at h
    cases h
  | ok r =>
    rw [hr] at h
    rw [← Except.ok.inj h]

/-- **Modules of a configuration.** Loading takes all the rest from the host first. Modules that are given then stop it as
`StopsWith` tells. So they are reported as a fault of the settings exactly when they are wrong, unless a number with too many
digits to be a text comes first, which stops loading without being reported. Otherwise the registry has one module for each
entry in order, and under different names. It answers with the module of a name, and for a name that it does not contain
with an error. -/
theorem load_modules {m : Type → Type} [Monad m] [LawfulMonad m] [Host m] (p : Path)
    (environment : Text → Option Text) (v : Value) (hv : v ≠ .scalar .null) :
    ((load p environment : m (Except LoadError Settings)) = do
      let found ← surroundings p environment
      return found.bind Surroundings.settings) ∧
    ∀ s : Surroundings, Yaml.lookup "modules" s.entries = some v →
      (∀ error, s.settings = .error error ↔ StopsWith v error) ∧
      ((∃ fault, s.settings = .error (.settings fault)) ↔ IsWrong v ∧ ¬ StopsWith v .tooManyDigits) ∧
      ((∃ found, s.settings = .ok found) ↔ ¬ IsWrong v ∧ ¬ StopsWith v .tooManyDigits) ∧
      ∀ found, s.settings = .ok found →
        (∃ entries, v = .list entries ∧ List.Forall₂ IsModuleOf entries found.registry.modules) ∧
        found.registry.names.Nodup ∧
        (∀ name module, found.registry.get name = .ok module ↔
          module ∈ found.registry.modules ∧ module.name = name) ∧
        ∀ name error, found.registry.get name = .error error ↔
          found.registry.contains name = false ∧ error = .unknown name found.registry.names := by
  refine ⟨load_eq p environment, fun s hs => ?_⟩
  have hstops : ∀ error, s.settings = .error error ↔ StopsWith v error := fun error => settings_eq_error_iff hs hv
  have hreported : (∃ fault, s.settings = .error (.settings fault)) ↔ IsWrong v ∧ ¬ StopsWith v .tooManyDigits := by
    simp only [hstops]
    exact exists_stopsWith_settings_iff hv
  have hfound : ∀ found, s.settings = .ok found →
      ∃ entries, v = .list entries ∧ List.Forall₂ IsModuleOf entries found.registry.modules := by
    intro found hfound
    have hregistry := registryOf_of_settings_eq_ok hs hfound
    obtain ⟨error, hstop⟩ | ⟨entries, r, hlist, hr, hall⟩ := stopsWith_or_registryOf v
    · cases hregistry.symm.trans (hstop.registryOf_eq hv)
    · rw [Except.ok.inj (hregistry.symm.trans hr)]
      exact ⟨entries, hlist, hall⟩
  refine ⟨hstops, hreported, ?_, fun found h => ⟨hfound found h, found.registry.names_nodup,
    fun name module => Registry.get_eq_ok_iff, fun name error => Registry.get_eq_error_iff⟩⟩
  constructor
  · rintro ⟨found, h⟩
    obtain ⟨entries, hlist, hall⟩ := hfound found h
    refine ⟨not_isWrong_of_forall₂ hlist hall, fun hlong => ?_⟩
    cases h.symm.trans ((hstops _).mpr hlong)
  · rintro ⟨hright, hshort⟩
    cases h : s.settings with
    | ok found => exact ⟨found, rfl⟩
    | error error =>
      obtain ⟨fault, rfl⟩ | rfl := ((hstops error).mp h).settings_or_tooManyDigits
      · exact absurd (hreported.mp ⟨fault, h⟩).1 hright
      · exact absurd ((hstops _).mp h) hshort

/-- The entry of a name and a file. -/
def entryWith (name : Scalar) (sourceFile : Text) : Value :=
  .mapping [(.string "name", .scalar name), (.string "file", .scalar (.string sourceFile))]

/-- An entry with a text for its name and one for its file is complete. -/
theorem isComplete_entryWith {name : Scalar} {t sourceFile : Text} (hname : HasText t (.scalar name)) (ht : t ≠ [])
    (hfile : sourceFile ≠ []) : IsComplete (entryWith name sourceFile) :=
  ⟨t, sourceFile, ⟨_, _, rfl, rfl, hname⟩, ht, ⟨_, _, rfl, rfl, .inl rfl⟩, hfile⟩

/-- Only the name of such an entry may be a number with too many digits. -/
theorem stopsAtNumber_entryWith {name : Scalar} {sourceFile : Text} (h : StopsAtNumber (entryWith name sourceFile)) :
    IsLongNumber (.scalar name) := by
  rcases h with ⟨_, v, ⟨⟩, hv, h⟩ | ⟨_, v, ⟨⟩, hv, n, rfl, -⟩ | ⟨-, ⟨_, v, ⟨⟩, hv, -⟩ | ⟨_, items, ⟨⟩, hv, -⟩⟩
  · obtain rfl : Value.scalar name = v := Option.some.inj hv
    exact h
  · cases Option.some.inj hv
  · cases hv
  · cases hv

/-- An entry that has a truth value for its name is reported, although a number gives the name of the entry before. -/
theorem load_modules_incomplete :
    Surroundings.settings ⟨.ofText "/", none, none, [(.string "modules",
        .list [entryWith (.string "1") "a.lua", entryWith (.whole 1) "b.lua", entryWith (.bool true) "c.lua"])]⟩ =
      .error (.settings (.moduleIncomplete 2)) := by
  have hshort : ∀ {name : Scalar} {sourceFile : Text}, (∀ n, name = .whole n → Text.isTooLong n = false) →
      ¬ StopsAtNumber (entryWith name sourceFile) := by
    intro name sourceFile hname hstop
    obtain ⟨n, hn, hlong⟩ := stopsAtNumber_entryWith hstop
    rw [hname n (Value.scalar.inj hn)] at hlong
    cases hlong
  have hfront : ∀ e ∈ [entryWith (.string "1") "a.lua", entryWith (.whole 1) "b.lua"], IsReadable e := by
    rw [List.forall_mem_cons, List.forall_mem_singleton]
    refine ⟨⟨isComplete_entryWith (t := "1") (.inl rfl) (by decide) (by decide), hshort nofun⟩,
      isComplete_entryWith (t := "1") (.inr (.inr ⟨1, rfl, rfl⟩)) (by decide) (by decide), hshort ?_⟩
    rintro n ⟨⟩
    decide +kernel
  have hentry : ¬ IsComplete (entryWith (.bool true) "c.lua") := by
    rintro ⟨name, _, ⟨_, v, ⟨⟩, hv, hname⟩, -⟩
    obtain rfl : Value.scalar (.bool true) = v := Option.some.inj hv
    rcases hname with h | h | ⟨n, h, -⟩ <;> cases h
  have hstop : StopsWith (.list [entryWith (.string "1") "a.lua", entryWith (.whole 1) "b.lua",
      entryWith (.bool true) "c.lua"]) (.settings (.moduleIncomplete 2)) :=
    .entry rfl hfront (.incomplete rfl (hshort nofun) hentry)
  have h := (load_modules (m := StateM Workspace) (.ofText "/") (fun _ => none) _ (by simp)).2
    ⟨.ofText "/", none, none, [(.string "modules",
      .list [entryWith (.string "1") "a.lua", entryWith (.whole 1) "b.lua", entryWith (.bool true) "c.lua"])]⟩ rfl
  exact (h.1 _).mpr hstop

/-- The least number with too many digits. -/
def leastLongNumber : Int := Int.ofNat (Nat.pow 10 Text.maxDigits)

/-- A module that has this number for its name. -/
def longNamed : Value := .list [entryWith (.whole leastLongNumber) "a.lua"]

/-- Modules may be right, and yet loading them answers with no configuration, because a number that is a name has too many
digits. And modules that are wrong are not reported when a directory is below a home directory that is not known. -/
theorem load_modules_unreported :
    (¬ IsWrong longNamed ∧
      Surroundings.settings ⟨.ofText "/", none, none, [(.string "modules", longNamed)]⟩ = .error .tooManyDigits) ∧
    IsWrong (.scalar (.string "core")) ∧
      let w : Workspace :=
        ⟨⟨[([usualFileName], .file (Text.encode "api_dir: ~nosuchuser_q\nmodules: core\n"))]⟩, [], [], [], [], []⟩
      ((load (.ofText ".") (fun _ => none) : StateM Workspace _).run w).1.map (fun _ => ()) = .error .noHome := by
  have hcomplete : IsComplete (entryWith (.whole leastLongNumber) "a.lua") :=
    isComplete_entryWith (.inr (.inr ⟨_, rfl, rfl⟩)) (Text.ofInt_ne_nil _) (by decide)
  refine ⟨⟨?_, ?_⟩, .inl nofun, ?_⟩
  · rintro (hlist | ⟨entries, heq, ⟨entry, hmem, hnot⟩ | hsame⟩)
    · exact hlist _ rfl
    · obtain rfl := Value.list.inj heq
      rw [List.mem_singleton] at hmem
      subst hmem
      exact hnot hcomplete
    · obtain rfl := Value.list.inj heq
      exact hsame (List.pairwise_singleton _ _)
  · have hleast : ∀ k, Nat.pow 10 Text.maxDigits ≤ k → Text.isTooLong (Int.ofNat k) = true := fun k hk => decide_eq_true hk
    have hlong : Text.isTooLong leastLongNumber = true := hleast _ (Nat.le_refl _)
    have hnone : ∀ e ∈ ([] : List Value), IsReadable e := List.forall_mem_nil _
    have hstop : StopsWith longNamed .tooManyDigits :=
      .entry rfl hnone (.tooManyDigits (.inl ⟨_, _, rfl, rfl, _, rfl, hlong⟩))
    have hlist : longNamed ≠ .scalar .null := nofun
    exact (settings_eq_error_iff rfl hlist).mpr hstop
  · decide +kernel

end LuaTypings.Settings
