import LuaTypings.Proofs.Batch.Results
import LuaTypings.Proofs.Host.FullDisk

/-!
# What a batch changes

A batch changes the files that its modules open to write their declarations, and no others. When it is over, the last module
that opened a file decides what it holds: the declaration, if that was written, and anything, if the write broke off behind
the open. A file that no module opened holds what it held before (`Batch.run_changes`). A module opens no file when its
source is missing, is no text or has no class, when a directory cannot be made or the file not be opened; an older
declaration stays. On a full disk it is gone, although the module is counted as an error
(`Batch.run_changes_without_declaration`). Directories may be made on the way.

The outcome of a module does not tell how a write failed, so the visits of a batch are taken with a note of it
(`Batch.visitNoting`); without the notes they are the visits that a run makes (`Batch.run_eq_visitsNoting`). Each program
of a batch is followed from the writes before it to those after it: whatever becomes of a module, it comes with one write if
its file was opened, and with none otherwise (`Batch.writes_visitNoting`).
-/

namespace LuaTypings

open Text (Bytes)

/-- A visit to a module, with what became of it. -/
structure Visit where
  module : ModuleSpec
  outcome : Outcome
  /-- Whether the file of the declaration was opened and then not written to the end. -/
  brokeOff : Bool
  /-- In that case something went wrong. -/
  failed : brokeOff = true → outcome.isFailed = true

namespace Visit

/-- The module and what became of it. -/
def result (r : Visit) : BatchResult := (r.module, r.outcome)

/-- Whether the file of the declaration was opened to be written. -/
def opensFile (r : Visit) : Bool := r.outcome.isGenerated || r.brokeOff

/-- The write that comes with a visit: a declaration goes to its path, or the write broke off there. -/
def write? (out : Path) (r : Visit) : Option FileWrite :=
  if r.opensFile then some ⟨Batch.declarationPath out r.module, r.outcome.declaration?.map Text.encode⟩ else none

/-- A visit comes with a write when it opens its file. -/
theorem write?_eq_some_iff {out : Path} {r : Visit} {w : FileWrite} :
    r.write? out = some w ↔
      r.opensFile = true ∧ ⟨Batch.declarationPath out r.module, r.outcome.declaration?.map Text.encode⟩ = w := by
  simp [write?]

end Visit

namespace Batch

open FileView (Writes Wrote Holds)

/-! ## Visits with a note -/

section Noting

variable {m : Type → Type} [Monad m] [Host m] (log : Log) (api out : Path)

/-- Visits a module and notes whether its write broke off. -/
def visitNoting (module : ModuleSpec) : m Visit := do
  log.record .info logSource ("Processing: " ++ module.name ++ " (" ++ module.flagsText ++ ")")
  match ← translateModule log api module with
  | .generated declaration =>
    let output := declarationPath out module
    match ← writeDeclaration output declaration with
    | .error e =>
      log.record .error logSource ("  " ++ unwritableReason output e.error)
      return ⟨module, .failed (unwritableReason output e.error), e.isUnfinished, fun _ => rfl⟩
    | .ok () =>
      log.record .info logSource ("  Generated: " ++ output.toText)
      return ⟨module, .generated declaration, false, nofun⟩
  | .skipped reason =>
    log.record .warning logSource ("  " ++ reason)
    return ⟨module, .skipped reason, false, nofun⟩
  | .failed reason =>
    log.record .error logSource ("  " ++ reason)
    return ⟨module, .failed reason, false, nofun⟩

/-- Visits modules one after another, with the notes. -/
def visitsNoting (modules : List ModuleSpec) : m (List Visit) := do
  log.record .info logSource
    ("Generating TypeScript declarations for " ++ Text.ofNat modules.length ++ " module(s)")
  modules.mapM (visitNoting log api out)

variable [LawfulMonad m] {log api out}

/-- Without the note a visit is the same. -/
theorem result_visitNoting (module : ModuleSpec) :
    Visit.result <$> (visitNoting log api out module : m Visit) = (module, ·) <$> visit log api out module := by
  simp only [visitNoting, visit, processModule, map_bind, bind_assoc]
  congr 1
  funext _
  congr 1
  funext outcome
  cases outcome with
  | generated declaration =>
    simp only [map_bind, bind_assoc]
    congr 1
    funext answer
    cases answer <;> simp [Visit.result]
  | skipped reason => simp [Visit.result]
  | failed reason => simp [Visit.result]

/-- Without their notes visits are the same. -/
theorem result_visitsNoting (modules : List ModuleSpec) :
    List.map Visit.result <$> (visitsNoting log api out modules : m (List Visit)) = visits log api out modules := by
  simp only [visits, visitsNoting, ← result_visitNoting, mapM_map_answers, map_bind]

/-- A run takes the visits with their notes and reports the results. -/
theorem run_eq_visitsNoting {settings : Settings} {name : Option Text} {modules : List ModuleSpec}
    (hdirectories : settings.directories = .ok (api, out)) (hselect : settings.registry.select name = .ok modules) :
    (run log settings name : m (Except BatchError BatchReport)) = do
      let noted ← visitsNoting log api out modules
      let report := BatchReport.ofResults out (noted.map Visit.result)
      log.record .info logSource ("Done! " ++ report.countsText)
      return .ok report := by
  rw [run_eq hdirectories hselect, ← result_visitsNoting, bind_map_left]

end Noting

/-! ## Writes of a batch -/

section Writes

variable {σ Id : Type} [Host (StateM σ)] {v : FileView σ Id} (h : v.Lawful) {api out : Path} {before : List FileWrite}

include h

/-- A declaration is one write, unless a directory is not made or its file not opened. -/
theorem writes_writeDeclaration {aside : Option Path} (output : Path) (declaration : Text) :
    v.Writes aside before (writeDeclaration output declaration : StateM σ _)
      fun answer => before ++ FileWrite.ofAnswer output (Text.encode declaration) answer := by
  refine (h.lasting.ensureDirectories output.parent).bind fun answer => ?_
  cases answer with
  | error e => exact .pure (List.append_nil before)
  | ok done => exact h.writeText output declaration

/-- A visit comes with one write if it opens its file, and with none otherwise. -/
theorem writes_visitNoting (log : Log) (module : ModuleSpec) :
    v.Writes log.file before (visitNoting log api out module : StateM σ _) fun r => before ++ (r.write? out).toList := by
  refine (h.record log _ _ _).bind fun _ => ?_
  refine (h.lasting.translateModule (h.record log) _ _).bind fun outcome => ?_
  cases outcome with
  | generated declaration =>
    refine (writes_writeDeclaration h _ declaration).bind fun answer => ?_
    cases answer with
    | error e =>
      refine (h.record log _ _ _).bind fun _ => .pure ?_
      cases e <;> rfl
    | ok done => exact (h.record log _ _ _).bind fun _ => .pure rfl
  | skipped reason => exact (h.record log _ _ _).bind fun _ => .pure (List.append_nil before)
  | failed reason => exact (h.record log _ _ _).bind fun _ => .pure (List.append_nil before)

/-- Visits come with the writes of each, in order. -/
theorem writes_visitsNoting (log : Log) (modules : List ModuleSpec) :
    v.Writes log.file before (visitsNoting log api out modules : StateM σ _)
      fun noted => before ++ noted.filterMap (Visit.write? out) :=
  (h.record log _ _ _).bind fun _ => .mapM (fun module _ => writes_visitNoting h log module) modules before

/-- A visit changes at most the file that the path of the module names, and this only if it opens the file. The log's file is
excepted. -/
theorem opensFile_of_changed (log : Log) (module : ModuleSpec) (t : σ) {i : Id} :
    let visited := (visitNoting log api out module : StateM σ _).run t
    log.file.bind (v.named? visited.2) ≠ some i → v.content? visited.2 i ≠ v.content? t i →
      visited.1.opensFile = true ∧ v.named? visited.2 (declarationPath out module) = some i := by
  intro visited hlog hchanged
  have hwrote : v.Wrote log.file t (visited.1.write? out).toList visited.2 :=
    writes_visitNoting h log module t t (.refl t)
  have hmodule : visited.1.module = module :=
    congrArg (fun x : StateM σ BatchResult => (x.run t).1.1) (result_visitNoting module)
  cases hwrote.holds i hlog with
  | kept same => exact absurd same hchanged
  | written earlier w later split here =>
    have hw : w ∈ (visited.1.write? out).toList := by
      rw [split]
      exact List.mem_append_right _ List.mem_cons_self
    obtain ⟨hopens, rfl⟩ := Visit.write?_eq_some_iff.mp (Option.mem_toList.mp hw)
    rw [hmodule] at here
    exact ⟨hopens, here⟩

end Writes

/-! ## What files hold after a batch -/

section Results

variable {σ Id : Type} {v : FileView σ Id}

/-- What a file holds from the writes of visits: the last one that opened it decides, and without one it holds what it held
before. -/
theorem holds_visits {out : Path} {t : σ} {i : Id} {old : Option Bytes} {noted : List Visit}
    (hholds : v.Holds t i old (noted.filterMap (Visit.write? out))) :
    (v.content? t i = old ∧ ∀ r ∈ noted, r.opensFile = true → v.named? t (declarationPath out r.module) ≠ some i) ∨
    ∃ earlier last later, noted = earlier ++ last :: later ∧ last.opensFile = true ∧
      v.named? t (declarationPath out last.module) = some i ∧
      (∀ declaration, last.outcome = .generated declaration → v.content? t i = some (Text.encode declaration)) ∧
      ∀ r ∈ later, r.opensFile = true → v.named? t (declarationPath out r.module) ≠ some i := by
  have helsewhere : ∀ noted : List Visit, (∀ w ∈ noted.filterMap (Visit.write? out), v.named? t w.path ≠ some i) →
      ∀ r ∈ noted, r.opensFile = true → v.named? t (declarationPath out r.module) ≠ some i := by
    intro noted hwrites r hr hopens
    exact hwrites _ (List.mem_filterMap.mpr ⟨r, hr, Visit.write?_eq_some_iff.mpr ⟨hopens, rfl⟩⟩)
  cases hholds with
  | kept same elsewhere => exact .inl ⟨same, helsewhere noted elsewhere⟩
  | written earlier w later split here content last =>
    -- The write stems from one of the visits, and the writes after it from those after that.
    obtain ⟨first, rest, rfl, -, hrest⟩ := List.filterMap_eq_append_iff.mp split
    obtain ⟨silent, r, visits, rfl, -, hwrite, rfl⟩ := List.filterMap_eq_cons_iff.mp hrest
    obtain ⟨hopens, rfl⟩ := Visit.write?_eq_some_iff.mp hwrite
    refine .inr ⟨first ++ silent, r, visits, (List.append_assoc _ _ _).symm, hopens, here, fun declaration hd => ?_,
      helsewhere visits last⟩
    exact content _ (by rw [hd]; rfl)

/-- A batch that does not start leaves everything as it is. -/
theorem run_of_error [Host (StateM σ)] {log : Log} {settings : Settings} {name : Option Text} {s : σ} {e : BatchError}
    (h : ((run log settings name : StateM σ _).run s).1 = .error e) :
    ((run log settings name : StateM σ _).run s).2 = s := by
  cases hdirectories : settings.directories with
  | error e' =>
    unfold run
    rw [hdirectories]
    rfl
  | ok directories =>
    cases hselect : settings.registry.select name with
    | error e' =>
      unfold run
      rw [hdirectories, hselect]
      rfl
    | ok modules =>
      rw [run_eq hdirectories hselect] at h
      cases h

/-- **What a batch changes.** On a host of which the operations change no more of the files than they should, with any log
and from any state:

- a batch that does not start leaves everything as it is;
- a module that is visited, whatever was done before, changes at most the file that its path names, and this only if it
  opens the file: it comes to a declaration, or the write breaks off. The log's file is excepted;
- a batch that starts reports what its visits came to, one for each selected module. When it is over, a file, unless it is
  the log's, is either one that no visit opened, and holds what it held before, or the last visit that opened it decides: if
  that came to a declaration, the file holds it. -/
theorem run_changes [Host (StateM σ)] (h : v.Lawful) (log : Log) (settings : Settings) (name : Option Text) (s : σ) :
    let ended := (run log settings name : StateM σ _).run s
    (∀ e, ended.1 = .error e → ended.2 = s) ∧
    ∀ api out, settings.directories = .ok (api, out) →
      (∀ (module : ModuleSpec) (t : σ),
        let visited := (visitNoting log api out module : StateM σ _).run t
        ∀ i, log.file.bind (v.named? visited.2) ≠ some i → v.content? visited.2 i ≠ v.content? t i →
          visited.1.opensFile = true ∧ v.named? visited.2 (declarationPath out module) = some i) ∧
      ∀ modules, settings.registry.select name = .ok modules →
        let noted := ((visitsNoting log api out modules : StateM σ _).run s).1
        ended.1 = .ok (.ofResults out (noted.map Visit.result)) ∧ noted.map (·.module) = modules ∧
        ∀ i, log.file.bind (v.named? ended.2) ≠ some i →
          (v.content? ended.2 i = v.content? s i ∧
            ∀ r ∈ noted, r.opensFile = true → v.named? ended.2 (declarationPath out r.module) ≠ some i) ∨
          ∃ earlier last later, noted = earlier ++ last :: later ∧ last.opensFile = true ∧
            v.named? ended.2 (declarationPath out last.module) = some i ∧
            (∀ declaration, last.outcome = .generated declaration →
              v.content? ended.2 i = some (Text.encode declaration)) ∧
            ∀ r ∈ later, r.opensFile = true → v.named? ended.2 (declarationPath out r.module) ≠ some i := by
  intro ended
  refine ⟨fun e he => run_of_error he, fun api out hdirectories => ⟨?_, fun modules hselect => ?_⟩⟩
  · exact fun module t i => opensFile_of_changed h log module t
  · intro noted
    have hresults : noted.map Visit.result = ((visits log api out modules : StateM σ _).run s).1 :=
      congrArg (fun x : StateM σ (List BatchResult) => (x.run s).1) (result_visitsNoting modules)
    have hended : ended.1 = .ok (.ofResults out (noted.map Visit.result)) := by
      show ((run log settings name : StateM σ _).run s).1 = _
      rw [run_eq_visitsNoting hdirectories hselect]
      rfl
    have hmodules : noted.map (·.module) = modules :=
      calc noted.map (·.module)
        _ = (noted.map Visit.result).map (·.1) := by simp [Visit.result]
        _ = ((visits log api out modules : StateM σ _).run s).1.map (·.1) := by rw [hresults]
        _ = modules := map_fst_mapM _ modules _
    have hwrote : v.Wrote log.file s (noted.filterMap (Visit.write? out)) ended.2 := by
      show v.Wrote log.file s _ ((run log settings name : StateM σ _).run s).2
      rw [run_eq_visitsNoting hdirectories hselect]
      exact (h.record log _ _ _) s _ (writes_visitsNoting h log modules s s (.refl s))
    exact ⟨hended, hmodules, fun i hi => holds_visits (hwrote.holds i hi)⟩

end Results

/-- Three modules: the declarations of two go to one file, and the third has no source. -/
def sharedModules : Settings where
  root := ⟨.root, []⟩
  apiDirectory := some ⟨.root, ["api"]⟩
  outputDirectory := some ⟨.root, ["types"]⟩
  registry := ⟨[⟨"unit", "unit.lua", none, [], false⟩, ⟨"gone", "gone.lua", none, [], false⟩,
    ⟨"./unit", "item.lua", none, [], false⟩], by decide⟩

/-- The sources of two of the modules, and an old declaration of the third. -/
def sharedSources : Workspace where
  files := ⟨[(["api"], .directory), (["api", "unit.lua"], .file (Text.encode "---@class Unit\n---@field hp number")),
    (["api", "item.lua"], .file (Text.encode "---@class Item")), (["types"], .directory),
    (["types", "gone.d.ts"], .file (Text.encode "old"))]⟩
  current := []
  environment := []
  clock := []
  output := []
  errors := []

/-- The file that both declarations go to. -/
def sharedFile : Location := ["types", "unit.d.ts"]

/-- The old declaration of the third module stays, and the file that two declarations went to holds the last of them. -/
theorem run_changes_of_shared_file :
    ∃ (noted : List Visit) (t : Workspace),
      (run ⟨false, none⟩ sharedModules none : StateM Workspace _).run sharedSources =
        (.ok (.ofResults ⟨.root, ["types"]⟩ (noted.map Visit.result)), t) ∧
      noted.map (fun r => (r.outcome.isGenerated, r.brokeOff)) = [(true, false), (false, false), (true, false)] ∧
      Workspace.fileView.content? t ["types", "gone.d.ts"] = some (Text.encode "old") ∧
      ∃ earlier last later, noted = earlier ++ last :: later ∧ last.opensFile = true ∧
        Workspace.fileView.named? t (declarationPath ⟨.root, ["types"]⟩ last.module) = some sharedFile ∧
        (∀ declaration, last.outcome = .generated declaration →
          Workspace.fileView.content? t sharedFile = some (Text.encode declaration)) ∧
        ∀ r ∈ later, r.opensFile = true →
          Workspace.fileView.named? t (declarationPath ⟨.root, ["types"]⟩ r.module) ≠ some sharedFile := by
  have hchanges := run_changes Workspace.fileView_lawful ⟨false, none⟩ sharedModules none sharedSources
  have hselected := (hchanges.2 ⟨.root, ["api"]⟩ ⟨.root, ["types"]⟩ rfl).2 _ rfl
  dsimp only at hselected
  generalize hnoted : ((visitsNoting _ _ _ _ : StateM Workspace _).run sharedSources).1 = noted at hselected
  have hkinds : noted.map (fun r => (r.outcome.isGenerated, r.brokeOff)) =
      [(true, false), (false, false), (true, false)] := by
    rw [← hnoted]
    decide +kernel
  have hold : Workspace.fileView.content? ((run ⟨false, none⟩ sharedModules none : StateM Workspace _).run sharedSources).2
      ["types", "gone.d.ts"] = some (Text.encode "old") := by
    decide +kernel
  have hnew : Workspace.fileView.content? ((run ⟨false, none⟩ sharedModules none : StateM Workspace _).run sharedSources).2
      sharedFile ≠ none := by
    decide +kernel
  generalize (run ⟨false, none⟩ sharedModules none : StateM Workspace _).run sharedSources = ended at hselected hold hnew ⊢
  obtain ⟨answer, t⟩ := ended
  obtain ⟨hanswer, -, hholds⟩ := hselected
  refine ⟨noted, t, congrArg (·, t) hanswer, hkinds, hold, ?_⟩
  -- There was no such file before.
  rcases hholds sharedFile nofun with ⟨hsame, -⟩ | hlast
  · exact absurd (hsame.trans rfl) hnew
  · exact hlast

/-- One module. -/
def unitModule : Settings where
  root := ⟨.root, []⟩
  apiDirectory := some ⟨.root, ["api"]⟩
  outputDirectory := some ⟨.root, ["types"]⟩
  registry := ⟨[⟨"unit", "unit.lua", none, [], false⟩], by decide⟩

/-- The source of the module, and its old declaration. -/
def oldDeclaration : Workspace where
  files := ⟨[(["api"], .directory), (["api", "unit.lua"], .file (Text.encode "---@class Unit")), (["types"], .directory),
    (["types", "unit.d.ts"], .file (Text.encode "old"))]⟩
  current := []
  environment := []
  clock := []
  output := []
  errors := []

/-- The file of the declaration. -/
def unitFile : Location := ["types", "unit.d.ts"]

/-- A file may differ although no declaration went to it. On a full disk the module is counted as an error, but its file was
opened, and the old declaration is gone; and the log's file differs, which the path of no module names. -/
theorem run_changes_without_declaration :
    (FullDisk.fileView.Lawful ∧
      FullDisk.fileView.content? oldDeclaration unitFile = some (Text.encode "old") ∧
      let ended := (run ⟨false, none⟩ unitModule none : StateM FullDisk _).run oldDeclaration
      ended.1 = .ok ⟨0, 0, 1, []⟩ ∧ FullDisk.fileView.content? ended.2 unitFile = some []) ∧
    Workspace.fileView.content? oldDeclaration ["run.log"] = none ∧
      let logged := (run ⟨false, some ⟨.root, ["run.log"]⟩⟩ unitModule none : StateM Workspace _).run oldDeclaration
      logged.1 = .ok ⟨1, 0, 0, [⟨.root, unitFile⟩]⟩ ∧ Workspace.fileView.content? logged.2 ["run.log"] ≠ none ∧
        Workspace.fileView.named? logged.2 ⟨.root, unitFile⟩ = some unitFile := by
  refine ⟨⟨FullDisk.fileView_lawful, ?_, ?_, ?_⟩, ?_, ?_, ?_, ?_⟩ <;> decide +kernel

end Batch

end LuaTypings
