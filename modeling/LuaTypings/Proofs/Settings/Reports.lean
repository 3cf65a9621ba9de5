import LuaTypings.CommandLine.Run
import LuaTypings.Proofs.Host.Asking
import LuaTypings.Proofs.Settings.ModuleEntries
import LuaTypings.Proofs.Text.Utf8

/-!
# What loading reports

What a configuration file gets wrong is a fault of the settings, and a command says so. Three errors are none of these: the
bytes of a file stand for no text, a directory is below a home directory that the host does not know, and a number that is
taken for a text has too many digits. So loading ends in a configuration or in a report exactly when the bytes of both files
are texts and the entries have no such directory and no such number, as far as loading gets to read the second file and to
look at the entries (`load_reports_iff`). What the host's reader of YAML makes of a text does not matter.

On a host on which questions change nothing, loading changes nothing. So its answer is put together from the contents of the
two files (`run_load`), and of steps one after another each is reported by itself (`isReported_bind_iff`).
-/

namespace LuaTypings

open Text (Bytes)
open Host (AsksOnly HasContent StartsAtUnknownHome)

/-- Steps that change nothing answer with an error of the first one, or as the other one does behind its result. -/
theorem run_step {σ ε α β : Type} {step : StateM σ (Except ε α)} {next : Except ε α → StateM σ (Except ε β)} {s : σ}
    {x : Except ε α} {f : α → Except ε β} (hstep : step.run s = (x, s))
    (herror : ∀ e, (next (.error e)).run s = (.error e, s)) (hok : ∀ a, (next (.ok a)).run s = (f a, s)) :
    (step >>= next).run s = (x >>= f, s) := by
  rw [run_bind_of_run_eq hstep]
  cases x with
  | error e => exact herror e
  | ok a => exact hok a

namespace Settings

open CommandLine (RunError hostEnvironment withSettings)
open Yaml (Scalar Value)

/-! ## Reports -/

section Reports

variable {α β : Type} {x : Except LoadError α} {f : α → Except LoadError β}

/-- Whether all that goes wrong is a fault of the settings. -/
def IsReported (x : Except LoadError α) : Prop := ∀ error, x = .error error → ∃ fault, error = .settings fault

/-- What is reported is a result or a fault of the settings. -/
theorem isReported_iff : IsReported x ↔ (∃ a, x = .ok a) ∨ ∃ fault, x = .error (.settings fault) := by
  cases x with
  | ok a => simp [IsReported]
  | error error => simp [IsReported]

/-- A result is reported. -/
theorem isReported_ok (a : α) : IsReported (.ok a) := nofun

/-- Faults of the settings are reported. -/
theorem isReported_mapError (x : Except SettingsFault α) : IsReported (x.mapError .settings) := by
  cases x with
  | ok a => exact isReported_ok a
  | error fault =>
    rintro _ ⟨⟩
    exact ⟨fault, rfl⟩

/-- An error of two steps is that of the first one, or of the other one behind a result. -/
theorem bind_eq_error_iff {error : LoadError} :
    x >>= f = .error error ↔ x = .error error ∨ ∃ a, x = .ok a ∧ f a = .error error := by
  cases x with
  | ok a => simp [bind, Except.bind]
  | error other => simp [bind, Except.bind]

/-- Two steps are reported when the first one is, and the other one behind every result. -/
theorem isReported_bind_iff : IsReported (x >>= f) ↔ IsReported x ∧ ∀ a, x = .ok a → IsReported (f a) := by
  simp only [IsReported, bind_eq_error_iff]
  constructor
  · exact fun h => ⟨fun error hx => h error (.inl hx), fun a ha error hf => h error (.inr ⟨a, ha, hf⟩)⟩
  · rintro ⟨hx, hf⟩ error (h | ⟨a, ha, h⟩)
    · exact hx error h
    · exact hf a ha error h

/-- Of two steps, the first of which is reported only with a result, both are reported or one is not. -/
theorem isReported_bind_iff_and {P : Prop} (hx : IsReported x → ∃ a, x = .ok a) (hf : ∀ a, IsReported (f a) ↔ P) :
    IsReported (x >>= f) ↔ IsReported x ∧ P := by
  rw [isReported_bind_iff]
  refine and_congr_right fun h => ?_
  obtain ⟨a, ha⟩ := hx h
  exact ⟨fun hnext => (hf a).mp (hnext a ha), fun hp b _ => (hf b).mpr hp⟩

end Reports

/-! ## Files -/

section Files

variable {yamlValue? : Text → Option Value} {content : Option Bytes} {bytes : Bytes} {fileName : Text}

/-- The entries that the content of a file gives by a reader of YAML, none when there is no file. -/
def entriesOfContent (yamlValue? : Text → Option Value) (fileName : Text) :
    Option Bytes → Except LoadError (List (Scalar × Value))
  | none => .ok []
  | some bytes =>
    match Text.decode bytes with
    | .error e => .error (.read (.encoding e))
    | .ok t => (entriesOf yamlValue? fileName (Text.unifyNewlines t)).mapError .settings

/-- Reading the entries of a file gives those of its content. -/
theorem run_readEntries {σ : Type} [Host (StateM σ)] {s : σ} {p : Path} (h : AsksOnly σ)
    (hcontent : HasContent s p content) :
    (readEntries p : StateM σ _).run s = (entriesOfContent (Host.yamlValue? (StateM σ)) p.name content, s) := by
  cases content with
  | none =>
    rw [readEntries, run_bind_of_run_eq (h.run_exists?_none hcontent)]
    rfl
  | some bytes =>
    rw [readEntries, run_bind_of_run_eq (h.run_exists?_some hcontent), if_pos rfl,
      run_bind_of_run_eq (h.run_readText hcontent), entriesOfContent]
    cases Text.decode bytes <;> rfl

/-- The content of a file is reported on when it stands for a text. -/
theorem isReported_entriesOfContent :
    IsReported (entriesOfContent yamlValue? fileName content) ↔ ∀ b ∈ content, ∃ t, b = Text.encode t := by
  cases content with
  | none => simp [entriesOfContent, isReported_ok]
  | some bytes =>
    simp only [Option.mem_some_iff, forall_eq', ← Text.decode_eq_ok_iff]
    rw [entriesOfContent]
    cases Text.decode bytes with
    | ok t => simp [isReported_mapError]
    | error e => simp [IsReported]

/-- The content of a file is unreadable when it stands for no text. -/
theorem entriesOfContent_eq_read_iff {e : ReadError} :
    entriesOfContent yamlValue? fileName content = .error (.read e) ↔
      ∃ b ∈ content, ∃ d, Text.decode b = .error d ∧ e = .encoding d := by
  cases content with
  | none => simp [entriesOfContent]
  | some bytes =>
    simp only [Option.mem_some_iff, exists_eq_left']
    rw [entriesOfContent]
    cases Text.decode bytes with
    | ok t => cases hentries : entriesOf yamlValue? fileName (Text.unifyNewlines t) <;> simp [hentries, Except.mapError]
    | error d => simp [eq_comm]

end Files

/-! ## Directories -/

variable {σ : Type} [Host (StateM σ)] {s : σ} {environment : Text → Option Text} {entries : List (Scalar × Value)}
  {variableName key : Text} {root : Path}

/-- A directory is named by a text: by that of a variable if it is not empty, or else by that of a key. -/
def NamesDirectory (environment : Text → Option Text) (entries : List (Scalar × Value)) (variableName key t : Text) : Prop :=
  Text.nonEmpty? (environment variableName) = some t ∨
    Text.nonEmpty? (environment variableName) = none ∧ ∃ v, Yaml.lookup key entries = some v ∧ HasText t v

/-- A directory would be named by a number that has too many digits. -/
def NamesByLongNumber (environment : Text → Option Text) (entries : List (Scalar × Value)) (variableName key : Text) :
    Prop :=
  Text.nonEmpty? (environment variableName) = none ∧ ∃ v, Yaml.lookup key entries = some v ∧ IsLongNumber v

/-- The text that names a directory is found, unless it is a number with too many digits. -/
theorem directoryText?_cases (environment : Text → Option Text) (entries : List (Scalar × Value)) (variableName key : Text) :
    (NamesByLongNumber environment entries variableName key ∧
      directoryText? environment entries variableName key = .error .tooManyDigits) ∨
    ¬ NamesByLongNumber environment entries variableName key ∧
      ∃ found, directoryText? environment entries variableName key = .ok found ∧
        ∀ t, found = some t ↔ NamesDirectory environment entries variableName key t := by
  unfold directoryText? NamesByLongNumber NamesDirectory
  cases Text.nonEmpty? (environment variableName) with
  | some given => exact .inr ⟨nofun, some given, rfl, by simp⟩
  | none =>
    cases hv : Yaml.lookup key entries with
    | none => exact .inr ⟨by simp, none, rfl, by simp⟩
    | some v => simpa using textOf?_some v

/-- What a text gives for a directory, seen from another one: a path is found or starts at an unknown home directory. -/
theorem run_pathOf (h : AsksOnly σ) (root : Path) (text? : Option Text) (s : σ) :
    ∃ answer, (pathOf root text? : StateM σ _).run s = (answer, s) ∧
      ∀ error, answer = .error error ↔ error = .noHome ∧ ∃ t ∈ text?, StartsAtUnknownHome s (.ofText t) := by
  match text? with
  | none => exact ⟨_, rfl, by simp⟩
  | some [] =>
    have hnames : (Path.ofText []).names = [] := rfl
    refine ⟨_, rfl, fun error => iff_of_false nofun ?_⟩
    rintro ⟨-, t, ht, name, names, hp, -⟩
    rw [← Option.some.inj ht, Path.mk.injEq, hnames] at hp
    cases hp.2
  | some (c :: t) =>
    obtain ⟨found, hrun, hnone⟩ := h.run_expandHome (.ofText (c :: t)) s
    rw [pathOf, run_bind_of_run_eq hrun]
    · cases found with
      | none =>
        refine ⟨_, rfl, fun error => ?_⟩
        rw [Except.error.injEq, eq_comm]
        simp [← hnone]
      | some found => exact ⟨_, rfl, fun error => iff_of_false nofun (by simp [← hnone])⟩
    · exact List.cons_ne_nil c t

/-- The directory that a variable or else a key gives, with what the host knows of home directories. -/
def directoryIn (s : σ) (root : Path) (environment : Text → Option Text) (entries : List (Scalar × Value))
    (variableName key : Text) : Except LoadError (Option Path) :=
  ((directoryOf root environment entries variableName key : StateM σ _).run s).1

/-- A directory is found, unless a number with too many digits or an unknown home directory is in the way. -/
theorem run_directoryOf (h : AsksOnly σ) (s : σ) (root : Path) (environment : Text → Option Text)
    (entries : List (Scalar × Value)) (variableName key : Text) :
    (directoryOf root environment entries variableName key : StateM σ _).run s =
        (directoryIn s root environment entries variableName key, s) ∧
      ((∃ found, directoryIn s root environment entries variableName key = .ok found) ∧
          ¬ NamesByLongNumber environment entries variableName key ∧
          (∀ t, NamesDirectory environment entries variableName key t → ¬ StartsAtUnknownHome s (.ofText t)) ∨
        directoryIn s root environment entries variableName key = .error .tooManyDigits ∧
          NamesByLongNumber environment entries variableName key ∨
        directoryIn s root environment entries variableName key = .error .noHome ∧
          ∃ t, NamesDirectory environment entries variableName key t ∧ StartsAtUnknownHome s (.ofText t)) := by
  unfold directoryIn directoryOf
  rcases directoryText?_cases environment entries variableName key with ⟨hlong, hread⟩ | ⟨hshort, text?, hread, htext⟩
  · rw [hread]
    exact ⟨rfl, .inr (.inl ⟨rfl, hlong⟩)⟩
  · rw [hread]
    dsimp only
    obtain ⟨answer, hrun, herror⟩ := run_pathOf h root text? s
    rw [hrun]
    refine ⟨rfl, ?_⟩
    cases answer with
    | ok found =>
      refine .inl ⟨⟨found, rfl⟩, hshort, fun t ht hhome => ?_⟩
      cases (herror .noHome).mpr ⟨rfl, t, (htext t).mpr ht, hhome⟩
    | error error =>
      obtain ⟨rfl, t, ht, hhome⟩ := (herror error).mp rfl
      exact .inr (.inr ⟨rfl, t, (htext t).mp ht, hhome⟩)

/-- A directory is reported on when it is found: no number with too many digits and no unknown home is in the way. -/
theorem isReported_directoryIn (h : AsksOnly σ) :
    IsReported (directoryIn s root environment entries variableName key) ↔
      ¬ NamesByLongNumber environment entries variableName key ∧
        ∀ t, NamesDirectory environment entries variableName key t → ¬ StartsAtUnknownHome s (.ofText t) := by
  obtain ⟨-, ⟨⟨found, hfound⟩, hright⟩ | ⟨hfound, hlong⟩ | ⟨hfound, t, ht, hhome⟩⟩ :=
    run_directoryOf h s root environment entries variableName key
  · rw [hfound]
    exact iff_of_true (isReported_ok found) hright
  · rw [hfound]
    exact iff_of_false (by simp [IsReported]) fun hright => hright.1 hlong
  · rw [hfound]
    exact iff_of_false (by simp [IsReported]) fun hright => hright.2 t ht hhome

/-- A directory is never a fault of the settings, nor is a file read for it. -/
theorem noHome_or_tooManyDigits_of_directoryIn (h : AsksOnly σ) {error : LoadError}
    (herror : directoryIn s root environment entries variableName key = .error error) :
    error = .noHome ∨ error = .tooManyDigits := by
  obtain ⟨-, ⟨⟨found, hfound⟩, -⟩ | ⟨hfound, -⟩ | ⟨hfound, -⟩⟩ :=
    run_directoryOf h s root environment entries variableName key
  · cases hfound.symm.trans herror
  · exact .inr (Except.error.inj (herror.symm.trans hfound))
  · exact .inl (Except.error.inj (herror.symm.trans hfound))

/-- A directory that is reported on is found. -/
theorem exists_directoryIn_of_isReported (h : AsksOnly σ)
    (hreported : IsReported (directoryIn s root environment entries variableName key)) :
    ∃ found, directoryIn s root environment entries variableName key = .ok found := by
  obtain hfound | ⟨fault, hfault⟩ := isReported_iff.mp hreported
  · exact hfound
  · rcases noHome_or_tooManyDigits_of_directoryIn h hfault with hother | hother <;> cases hother

/-! ## Modules -/

variable {v? : Option Value} {error : LoadError}

/-- What goes wrong with the registry is a fault of the settings or a number with too many digits. -/
theorem settings_or_tooManyDigits_of_registryOf (h : registryOf v? = .error error) :
    (∃ fault, error = .settings fault) ∨ error = .tooManyDigits := by
  cases v? with
  | none => cases h
  | some v =>
    by_cases hv : v = .scalar .null
    · subst hv
      cases h
    · exact ((registryOf_eq_error_iff hv).mp h).settings_or_tooManyDigits

/-- The registry is reported on, unless a number with too many digits is in the way. -/
theorem isReported_registryOf : IsReported (registryOf v?) ↔ ¬ ∃ v, v? = some v ∧ StopsWith v .tooManyDigits := by
  constructor
  · rintro hreported ⟨v, rfl, hlong⟩
    have hv : v ≠ .scalar .null := by
      rintro rfl
      cases hlong with
      | entry hlist => cases hlist
    obtain ⟨fault, hfault⟩ := hreported _ (hlong.registryOf_eq hv)
    cases hfault
  · intro hshort error h
    obtain hfault | rfl := settings_or_tooManyDigits_of_registryOf h
    · exact hfault
    · cases v? with
      | none => cases h
      | some v =>
        have hv : v ≠ .scalar .null := by
          rintro rfl
          cases h
        exact absurd ⟨v, rfl, (registryOf_eq_error_iff hv).mp h⟩ hshort

/-! ## Loading -/

/-- The configuration that entries give, with what the host knows of home directories. -/
def settingsIn (s : σ) (root : Path) (environment : Text → Option Text) (entries : List (Scalar × Value)) :
    Except LoadError Settings := do
  let api ← directoryIn s root environment entries apiVariable "api_dir"
  let output ← directoryIn s root environment entries outputVariable "output_dir"
  let registry ← registryOf (Yaml.lookup "modules" entries)
  return ⟨root, api, output, registry⟩

/-- The configuration of entries changes nothing. -/
theorem run_ofEntries (h : AsksOnly σ) (s : σ) (root : Path) (environment : Text → Option Text)
    (entries : List (Scalar × Value)) :
    (ofEntries root environment entries : StateM σ _).run s = (settingsIn s root environment entries, s) := by
  refine run_step (run_directoryOf h _ _ _ _ _ _).1 (fun _ => rfl) fun api => ?_
  refine run_step (run_directoryOf h _ _ _ _ _ _).1 (fun _ => rfl) fun output => ?_
  dsimp only
  cases registryOf (Yaml.lookup "modules" entries) <;> rfl

/-- Entries name a directory below an unknown home, by themselves or by a variable. -/
def NamesUnknownHome (s : σ) (environment : Text → Option Text) (entries : List (Scalar × Value)) : Prop :=
  ∃ t, (NamesDirectory environment entries apiVariable "api_dir" t ∨
    NamesDirectory environment entries outputVariable "output_dir" t) ∧ StartsAtUnknownHome s (.ofText t)

/-- A number that is taken for a text, for a directory or in the modules, has too many digits. -/
def MeetsLongNumber (environment : Text → Option Text) (entries : List (Scalar × Value)) : Prop :=
  NamesByLongNumber environment entries apiVariable "api_dir" ∨
    NamesByLongNumber environment entries outputVariable "output_dir" ∨
    ∃ v, Yaml.lookup "modules" entries = some v ∧ StopsWith v .tooManyDigits

/-- Entries are reported on unless they name a directory below an unknown home or meet a number with too many digits. -/
theorem isReported_settingsIn (h : AsksOnly σ) :
    IsReported (settingsIn s root environment entries) ↔
      ¬ NamesUnknownHome s environment entries ∧ ¬ MeetsLongNumber environment entries := by
  have hregistry : ∀ api output, IsReported (registryOf (Yaml.lookup "modules" entries) >>= fun registry =>
      (.ok ⟨root, api, output, registry⟩ : Except LoadError Settings)) ↔
        ¬ ∃ v, Yaml.lookup "modules" entries = some v ∧ StopsWith v .tooManyDigits := by
    intro api output
    rw [isReported_bind_iff, isReported_registryOf]
    exact and_iff_left fun registry _ => isReported_ok _
  have hsteps : IsReported (settingsIn s root environment entries) ↔
      IsReported (directoryIn s root environment entries apiVariable "api_dir") ∧
        IsReported (directoryIn s root environment entries outputVariable "output_dir") ∧
          ¬ ∃ v, Yaml.lookup "modules" entries = some v ∧ StopsWith v .tooManyDigits :=
    isReported_bind_iff_and (exists_directoryIn_of_isReported h) fun api =>
      isReported_bind_iff_and (exists_directoryIn_of_isReported h) (hregistry api)
  rw [isReported_directoryIn h, isReported_directoryIn h] at hsteps
  refine hsteps.trans ⟨?_, ?_⟩
  · rintro ⟨⟨hapi, hapiHome⟩, ⟨houtput, houtputHome⟩, hmodules⟩
    refine ⟨?_, ?_⟩
    · rintro ⟨t, ht | ht, hhome⟩
      exacts [hapiHome t ht hhome, houtputHome t ht hhome]
    · rintro (hlong | hlong | hlong)
      exacts [hapi hlong, houtput hlong, hmodules hlong]
  · rintro ⟨hhome, hlong⟩
    exact ⟨⟨fun hapi => hlong (.inl hapi), fun t ht hunknown => hhome ⟨t, .inl ht, hunknown⟩⟩,
      ⟨fun houtput => hlong (.inr (.inl houtput)), fun t ht hunknown => hhome ⟨t, .inr ht, hunknown⟩⟩,
      fun hmodules => hlong (.inr (.inr hmodules))⟩

/-- No file is read for what entries give. -/
theorem settingsIn_ne_read (h : AsksOnly σ) (e : ReadError) : settingsIn s root environment entries ≠ .error (.read e) := by
  intro hread
  rw [settingsIn] at hread
  obtain hread | ⟨api, -, hread⟩ := bind_eq_error_iff.mp hread
  · rcases noHome_or_tooManyDigits_of_directoryIn h hread with hother | hother <;> cases hother
  · obtain hread | ⟨output, -, hread⟩ := bind_eq_error_iff.mp hread
    · rcases noHome_or_tooManyDigits_of_directoryIn h hread with hother | hother <;> cases hother
    · obtain hread | ⟨registry, -, hread⟩ := bind_eq_error_iff.mp hread
      · rcases settings_or_tooManyDigits_of_registryOf hread with ⟨fault, hother⟩ | hother <;> cases hother
      · cases hread

variable {p file : Path} {content localContent : Option Bytes} {bytes : Bytes}

/-- The configuration that the contents of two files give. -/
def loaded (s : σ) (environment : Text → Option Text) (file : Path) (content localContent : Option Bytes) :
    Except LoadError Settings := do
  let entries ← entriesOfContent (Host.yamlValue? (StateM σ)) file.name content
  let localEntries ← entriesOfContent (Host.yamlValue? (StateM σ)) overlayFileName localContent
  settingsIn s file.parent environment (entries ++ localEntries)

/-- The configuration of a file and of one laid over it is loaded without a change. -/
theorem run_load (h : AsksOnly σ) (hfile : (filePath p : StateM σ _).run s = (.ok file, s))
    (hcontent : HasContent s file content) (hlocal : HasContent s (file.withName overlayFileName) localContent)
    (environment : Text → Option Text) :
    (load p environment : StateM σ _).run s = (loaded s environment file content localContent, s) := by
  have hname : (file.withName overlayFileName).name = overlayFileName := by simp [Path.name, Path.withName]
  have hoverlay := run_readEntries h hlocal
  rw [hname] at hoverlay
  rw [load, run_bind_of_run_eq hfile, loaded]
  refine run_step (run_readEntries h hcontent) (fun _ => rfl) fun entries => ?_
  refine run_step hoverlay (fun _ => rfl) fun localEntries => ?_
  exact run_ofEntries h _ _ _ _

/-- A command stops without an exit code when its configuration is not reported. -/
theorem run_withSettings_of_not_settings (h : AsksOnly σ) (herror : ∀ fault, error ≠ .settings fault)
    (hload : ∀ environment, (load p environment : StateM σ _).run s = (.error error, s))
    (go : Settings → StateM σ (Except RunError Nat)) :
    (withSettings (some p) go).run s = (.error (.load error), s) := by
  have hvariable : ∀ name, (Host.environmentValue name : StateM σ _).run s =
      (((Host.environmentValue name : StateM σ _).run s).1, s) := fun name => Prod.ext rfl (h.environmentValue name s)
  obtain ⟨environment, henvironment⟩ : ∃ environment,
      (hostEnvironment : StateM σ _).run s = (environment, s) :=
    ⟨_, by rw [hostEnvironment, run_bind_of_run_eq (hvariable _), run_bind_of_run_eq (hvariable _)]; rfl⟩
  rw [withSettings, run_bind_of_run_eq henvironment, run_bind_of_run_eq (hload environment)]
  cases error with
  | settings fault => exact absurd rfl (herror fault)
  | read e => rfl
  | noHome => rfl
  | tooManyDigits => rfl

/-- **What loading reports.** On a host on which questions change nothing, with any reader of YAML, a configuration whose
file has some bytes is loaded, or what is wrong with it is reported as a fault of the settings, exactly when the bytes are
the encoding of a text, and then, if they give entries, those of the file laid over it are one too, and, if these also give
entries, all entries together name no directory below an unknown home and meet no number with too many digits. The bytes of
a file that are no such encoding are not reported but stop the loading, with the reason why they are not decoded, and they
stop every command that needs the configuration, without an exit code. -/
theorem load_reports_iff (h : AsksOnly σ) (hfile : (filePath p : StateM σ _).run s = (.ok file, s))
    (hcontent : HasContent s file (some bytes)) (hlocal : HasContent s (file.withName overlayFileName) localContent)
    (environment : Text → Option Text) :
    let entriesOf := entriesOfContent (Host.yamlValue? (StateM σ))
    ∃ answer, (load p environment : StateM σ _).run s = (answer, s) ∧
      (((∃ settings, answer = .ok settings) ∨ ∃ fault, answer = .error (.settings fault)) ↔
        (∃ t, bytes = Text.encode t) ∧ ∀ entries, entriesOf file.name (some bytes) = .ok entries →
          (∀ b ∈ localContent, ∃ t, b = Text.encode t) ∧
            ∀ localEntries, entriesOf overlayFileName localContent = .ok localEntries →
              ¬ NamesUnknownHome s environment (entries ++ localEntries) ∧
                ¬ MeetsLongNumber environment (entries ++ localEntries)) ∧
      (∀ e, answer = .error (.read e) ↔
        ∃ d, e = .encoding d ∧ (Text.decode bytes = .error d ∨
          (∃ entries, entriesOf file.name (some bytes) = .ok entries) ∧
            ∃ b ∈ localContent, Text.decode b = .error d)) ∧
      ∀ d, Text.decode bytes = .error d → ∀ go : Settings → StateM σ (Except RunError Nat),
        (withSettings (some p) go).run s = (.error (.load (.read (.encoding d))), s) := by
  refine ⟨_, run_load h hfile hcontent hlocal environment, ?_, fun e => ?_, fun d hd => ?_⟩
  · rw [← isReported_iff, loaded, isReported_bind_iff, isReported_entriesOfContent]
    simp only [isReported_bind_iff, isReported_entriesOfContent, isReported_settingsIn h, Option.mem_some_iff, forall_eq']
  · rw [loaded, bind_eq_error_iff]
    simp only [bind_eq_error_iff, entriesOfContent_eq_read_iff, settingsIn_ne_read h, and_false, exists_false, or_false,
      Option.mem_some_iff, exists_eq_left']
    constructor
    · rintro (⟨d, hd, he⟩ | ⟨entries, hentries, b, hb, d, hd, he⟩)
      · exact ⟨d, he, .inl hd⟩
      · exact ⟨d, he, .inr ⟨⟨entries, hentries⟩, b, hb, hd⟩⟩
    · rintro ⟨d, he, hd | ⟨⟨entries, hentries⟩, b, hb, hd⟩⟩
      · exact .inl ⟨d, hd, he⟩
      · exact .inr ⟨entries, hentries, b, hb, d, hd, he⟩
  · refine run_withSettings_of_not_settings h nofun fun environment => ?_
    rw [run_load h hfile hcontent hlocal, loaded, entriesOfContent, hd]
    rfl

/-- What is wrong with a file is reported although the one laid over it is no text. -/
theorem load_reports_iff_of_list :
    let w : Workspace :=
      ⟨⟨[([".dtsgen.yml".toList], .file (Text.encode "- a")), ([".dtsgen.local.yml".toList], .file [0xc3])]⟩,
        [], [], [], [], []⟩
    (∀ t, [0xc3] ≠ Text.encode t) ∧ ∃ answer, (load (.ofText ".") (fun _ => none) : StateM Workspace _).run w = (answer, w) ∧
      ((∃ settings, answer = .ok settings) ∨ ∃ fault, answer = .error (.settings fault)) := by
  intro w
  have hfile : (filePath (.ofText ".") : StateM Workspace _).run w = (.ok ⟨.root, [usualFileName]⟩, w) := rfl
  have hcontent : HasContent w ⟨.root, [usualFileName]⟩ (some (Text.encode "- a")) := ⟨nofun, rfl⟩
  have hlocal : HasContent w ⟨.root, [overlayFileName]⟩ (some [0xc3]) := ⟨nofun, rfl⟩
  have hfault : entriesOfContent (Host.yamlValue? (StateM Workspace)) usualFileName (some (Text.encode "- a")) =
      .error (.settings (.notMapping usualFileName)) := by rfl
  obtain ⟨answer, hrun, hreported, -, -⟩ := load_reports_iff Workspace.asksOnly hfile hcontent hlocal fun _ => none
  refine ⟨fun t ht => ?_, answer, hrun, hreported.mpr ⟨⟨"- a", rfl⟩, fun entries hentries => ?_⟩⟩
  · have hdecode : Text.decode [0xc3] = .error ⟨0xc3, 0, 1, .endOfData⟩ := by decide +kernel
    cases hdecode.symm.trans (Text.decode_eq_ok_iff.mpr ht)
  · cases hfault.symm.trans hentries

/-- A byte that no text has is neither loaded nor reported. -/
theorem load_of_byte :
    let w : Workspace := ⟨⟨[([".dtsgen.yml".toList], .file [0xff])]⟩, [], [], [], [], []⟩
    (load (.ofText ".") (fun _ => none) : StateM Workspace _).run w =
      (.error (.read (.encoding ⟨0xff, 0, 1, .badStart⟩)), w) := by
  intro w
  have hfile : (filePath (.ofText ".") : StateM Workspace _).run w = (.ok ⟨.root, [usualFileName]⟩, w) := rfl
  have hcontent : HasContent w ⟨.root, [usualFileName]⟩ (some [0xff]) := ⟨nofun, rfl⟩
  have hlocal : HasContent w ⟨.root, [overlayFileName]⟩ none := rfl
  rw [run_load Workspace.asksOnly hfile hcontent hlocal]
  rfl

end Settings

end LuaTypings
