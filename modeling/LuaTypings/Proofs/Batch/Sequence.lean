import LuaTypings.Proofs.Batch.Results
import LuaTypings.Proofs.Host.Alike

/-!
# A batch as a sequence of batches

A batch over all modules of a registry does to the files what batches over its modules one by one do, in the order of the
registry, and its report is the sum of theirs (`Batch.run_sequence`). What a module comes to may depend on what the modules
before it wrote, so the two are compared as programs that are alike for the files: only records stand between the modules,
in the batch over all of them as in the single ones (`Batch.alike_run`, `Batch.alike_singleRuns`), and without a log file
records go to no file.
-/

namespace LuaTypings

/-- A module of a registry is the one that its name selects. -/
theorem Registry.select_name {r : Registry} {module : ModuleSpec} (h : module ∈ r.modules) :
    r.select (some module.name) = .ok [module] := by
  have hnodup := r.names_nodup
  rw [List.nodup_iff_pairwise_ne, List.pairwise_map] at hnodup
  have hfound : r.modules.find? (·.name = module.name) = some module := by
    obtain ⟨before, after, hsplit⟩ := List.append_of_mem h
    refine List.find?_eq_some_iff_append.mpr ⟨by simp, before, after, hsplit, fun other hother => ?_⟩
    -- No module in front of it has its name.
    rw [hsplit, List.pairwise_append] at hnodup
    simpa using hnodup.2.2 other hother module List.mem_cons_self
  rw [select, get, hfound]
  rfl

namespace Batch

open Host (Alike FilesApart)

variable {σ F : Type} [Host (StateM σ)] {files : σ → F} {log : Log} {api out : Path}

/-! ## Visits without records -/

/-- What becomes of a declaration that is written depends on the files. -/
theorem alike_writeDeclaration (h : FilesApart files) (output : Path) (declaration : Text) :
    Alike files (writeDeclaration output declaration : StateM σ _) (writeDeclaration output declaration) := by
  refine (h.lasting.ensureDirectories output.parent).bind fun answer => ?_
  cases answer with
  | error e => exact .pure _
  | ok done => exact h.writeText output declaration

section Records

variable (h : FilesApart files) (hlog : log.file = none)

include h hlog

/-- What becomes of a module depends on the files. -/
theorem alike_processModule (output : Path) (module : ModuleSpec) :
    Alike files (processModule log api output module : StateM σ _) (processModule log api output module) := by
  have hrecord : ∀ level source message,
      Alike files (log.record level source message : StateM σ _) (log.record level source message) :=
    fun _ _ _ => (h.record hlog _ _ _).trans (h.record hlog _ _ _).symm
  refine (h.lasting.translateModule hrecord _ _).bind fun outcome => ?_
  cases outcome with
  | generated declaration =>
    refine (alike_writeDeclaration h _ _).bind fun answer => ?_
    cases answer with
    | error e => exact .pure _
    | ok done => exact (hrecord _ _ _).bind fun _ => .pure _
  | skipped reason => exact .pure _
  | failed reason => exact .pure _

/-- A visit does to the files what processing the module does. -/
theorem alike_visit (module : ModuleSpec) :
    Alike files (visit log api out module : StateM σ _) (processModule log api (declarationPath out module) module) := by
  refine (h.record hlog _ _ _).skip ?_
  rw [← bind_pure (processModule log api (declarationPath out module) module)]
  simp only [bind_assoc, pure_bind]
  refine (alike_processModule h hlog _ _).bind fun outcome => ?_
  cases outcome with
  | generated declaration => exact .pure _
  | skipped reason => exact (h.record hlog _ _ _).skip (.pure _)
  | failed reason => exact (h.record hlog _ _ _).skip (.pure _)

end Records

/-- Processes modules one after another, without any record in between. -/
def processAll (log : Log) (api out : Path) (modules : List ModuleSpec) : StateM σ (List BatchResult) :=
  modules.mapM fun module => (module, ·) <$> processModule log api (declarationPath out module) module

/-- A run does to the files what processing the selected modules does, and reports what they come to. -/
theorem alike_run (h : FilesApart files) (hlog : log.file = none) {settings : Settings} {name : Option Text}
    {modules : List ModuleSpec} (hdirectories : settings.directories = .ok (api, out))
    (hselect : settings.registry.select name = .ok modules) :
    Alike files (run log settings name : StateM σ _)
      ((fun results => .ok (BatchReport.ofResults out results)) <$> processAll log api out modules) := by
  have hvisits : Alike files (visits log api out modules : StateM σ _) (processAll log api out modules) :=
    (h.record hlog _ _ _).skip (.mapM fun module _ => (alike_visit h hlog module).map _)
  rw [run_eq hdirectories hselect, map_eq_pure_bind]
  exact hvisits.bind fun results => (h.record hlog _ _ _).skip (.pure _)

/-! ## Runs over single modules -/

/-- Runs over the modules one by one do to the files what processing them does, and report what each comes to. -/
theorem alike_singleRuns (h : FilesApart files) (hlog : log.file = none) {settings : Settings}
    (hdirectories : settings.directories = .ok (api, out)) :
    Alike files (settings.registry.names.mapM fun name => (run log settings (some name) : StateM σ _))
      (List.map (fun r => .ok (BatchReport.ofResults out [r])) <$> processAll log api out settings.registry.modules) := by
  rw [processAll, ← mapM_map_answers, Registry.names, List.mapM_map]
  refine .mapM fun module hmodule => ?_
  have hsingle := alike_run h hlog hdirectories (Registry.select_name hmodule)
  have hprocess : (processAll log api out [module] : StateM σ _) =
      (fun outcome => [(module, outcome)]) <$> processModule log api (declarationPath out module) module := by
    simp [processAll]
  rw [hprocess, Functor.map_map] at hsingle
  rw [Functor.map_map]
  exact hsingle

/-- **A batch is the sequence of its single batches.** Let the files of a host be a part of it that can be looked at alone,
and let both directories be set. Without a log file, a batch over all modules leaves the same files as batches over the
modules one by one in the order of the registry, and its report is the sum of their reports. In every batch each selected
module is visited once, in order, and counted once by what became of it; there is a path for each declaration, in order; and
the batch fails as a whole exactly when some module failed. -/
theorem run_sequence (h : FilesApart files) {settings : Settings} (hdirectories : settings.directories = .ok (api, out)) :
    (∀ (log : Log) (s : σ), log.file = none →
      let whole := (run log settings none : StateM σ _).run s
      let singles := (settings.registry.names.mapM fun name => (run log settings (some name) : StateM σ _)).run s
      files whole.2 = files singles.2 ∧
        ∃ reports : List BatchReport, singles.1 = reports.map .ok ∧ whole.1 = .ok (.total reports)) ∧
    ∀ (log : Log) (s : σ) (name : Option Text) (modules : List ModuleSpec),
      settings.registry.select name = .ok modules →
        let results := ((visits log api out modules : StateM σ _).run s).1
        ∃ report : BatchReport, ((run log settings name : StateM σ _).run s).1 = .ok report ∧
          results.map (·.1) = modules ∧
          report.generated = results.countP (·.2.isGenerated) ∧ report.skipped = results.countP (·.2.isSkipped) ∧
          report.errors = results.countP (·.2.isFailed) ∧
          report.generated + report.skipped + report.errors = modules.length ∧
          report.outputs = (results.filter (·.2.isGenerated)).map (fun r => declarationPath out r.1) ∧
          (report.exitCode = 1 ↔ ∃ r ∈ results, r.2.isFailed = true) := by
  constructor
  · intro log s hlog whole singles
    obtain ⟨hanswer, hfiles⟩ := alike_run h hlog hdirectories (rfl : settings.registry.select none = _) s s rfl
    obtain ⟨hanswer', hfiles'⟩ := alike_singleRuns h hlog hdirectories s s rfl
    -- Both come to the results of processing the modules from here.
    let results := ((processAll log api out settings.registry.modules : StateM σ _).run s).1
    refine ⟨hfiles.trans hfiles'.symm, results.map fun r => BatchReport.ofResults out [r], ?_, ?_⟩
    · rw [List.map_map]
      exact hanswer'
    · rw [BatchReport.total_map_ofResults]
      exact hanswer
  · intro log s name modules hselect results
    have hmodules : results.map (·.1) = modules := map_fst_mapM _ modules _
    refine ⟨.ofResults out results, ?_, hmodules, rfl, rfl, rfl, ?_, rfl, BatchReport.exitCode_ofResults out results⟩
    · rw [run_eq hdirectories hselect]
      rfl
    · rw [BatchReport.counts_ofResults, ← hmodules, List.length_map]

/-- Three modules: one has a class, one has none, and of one there is no source. -/
def threeModules : Settings where
  root := ⟨.root, []⟩
  apiDirectory := some ⟨.root, ["api"]⟩
  outputDirectory := some ⟨.root, ["types"]⟩
  registry := ⟨[⟨"unit", "unit.lua", none, [], false⟩, ⟨"empty", "empty.lua", none, [], false⟩,
    ⟨"gone", "gone.lua", none, [], false⟩], by decide⟩

/-- The sources of two of the three modules, and an old declaration of the third. -/
def threeSources : Workspace where
  files := ⟨[(["api"], .directory), (["api", "unit.lua"], .file (Text.encode "---@class Unit\n---@field hp number")),
    (["api", "empty.lua"], .file (Text.encode "local M = 1")), (["types"], .directory),
    (["types", "gone.d.ts"], .file (Text.encode "old"))]⟩
  current := []
  environment := []
  clock := []
  output := []
  errors := []

/-- The batch over the three modules counts one of each kind, and so do the three single batches together. -/
theorem run_sequence_of_three_modules :
    let log : Log := ⟨false, none⟩
    let whole := (run log threeModules none : StateM Workspace _).run threeSources
    let singles :=
      (threeModules.registry.names.mapM fun name => (run log threeModules (some name) : StateM Workspace _)).run threeSources
    whole.1 = .ok ⟨1, 1, 1, [⟨.root, ["types", "unit.d.ts"]⟩]⟩ ∧ whole.2.fileState = singles.2.fileState ∧
      (∃ reports : List BatchReport, singles.1 = reports.map .ok ∧ whole.1 = .ok (.total reports)) ∧
      ∃ report : BatchReport, whole.1 = .ok report ∧ report.generated + report.skipped + report.errors = 3 ∧
        report.outputs.length = report.generated ∧ report.exitCode = 1 := by
  intro log whole singles
  obtain ⟨hsequence, hreport⟩ := run_sequence Workspace.filesApart (rfl : threeModules.directories = _)
  obtain ⟨hfiles, hreports⟩ := hsequence log threeSources rfl
  have hanswer : whole.1 = .ok ⟨1, 1, 1, [⟨.root, ["types", "unit.d.ts"]⟩]⟩ := by decide +kernel
  obtain ⟨report, hrun, -, -, -, -, hcounts, -⟩ := hreport log threeSources none _ rfl
  obtain rfl : report = ⟨1, 1, 1, [⟨.root, ["types", "unit.d.ts"]⟩]⟩ := Except.ok.inj (hrun.symm.trans hanswer)
  exact ⟨hanswer, hfiles, hreports, _, hrun, hcounts, rfl, rfl⟩

end Batch

end LuaTypings
