import Mathlib.Algebra.GroupWithZero.Nat
import Mathlib.Data.List.Induction
import LuaTypings.Batch

/-!
# Results of a batch

A batch visits its modules one after another, and its report says what the visits came to: `run_eq` takes a run apart into
the visits and the report of their results, for every host. The report of results is in closed form
(`BatchReport.ofResults`): it counts the outcomes of each kind, which are all of them (`counts_ofResults`), lists the paths
of the declarations, and fails as a whole when one of the results does (`exitCode_ofResults`). Taken one by one, the results
add up to the same report (`total_map_ofResults`).
-/

namespace LuaTypings

namespace Outcome

/-- Whether there was nothing to declare. -/
def isSkipped : Outcome → Bool
  | skipped _ => true
  | generated _ | failed _ => false

/-- Whether something went wrong. -/
def isFailed : Outcome → Bool
  | failed _ => true
  | generated _ | skipped _ => false

end Outcome

/-- A module and what became of it. -/
abbrev BatchResult := ModuleSpec × Outcome

/-! ## Reports -/

namespace BatchReport

/-- The report of results whose declarations go to a directory. -/
def ofResults (out : Path) (results : List BatchResult) : BatchReport :=
  { generated := results.countP (·.2.isGenerated)
    skipped := results.countP (·.2.isSkipped)
    errors := results.countP (·.2.isFailed)
    outputs := (results.filter (·.2.isGenerated)).map fun r => Batch.declarationPath out r.1 }

/-- The report of several batches, one after another. -/
def total (reports : List BatchReport) : BatchReport :=
  { generated := (reports.map (·.generated)).sum
    skipped := (reports.map (·.skipped)).sum
    errors := (reports.map (·.errors)).sum
    outputs := reports.flatMap (·.outputs) }

variable (out : Path) (results : List BatchResult)

/-- The last result is added to the report of those before it. -/
theorem ofResults_concat (r : BatchResult) :
    ofResults out (results ++ [r]) = (ofResults out results).add (Batch.declarationPath out r.1) r.2 := by
  obtain ⟨module, outcome⟩ := r
  cases outcome <;>
    simp [ofResults, add, Outcome.isGenerated, Outcome.isSkipped, Outcome.isFailed, List.countP_append]

/-- Adding results one after another gives their report. -/
theorem foldl_add :
    results.foldl (fun report r => report.add (Batch.declarationPath out r.1) r.2) empty = ofResults out results := by
  induction results using List.reverseRecOn with
  | nil => rfl
  | append_singleton results r ih => rw [List.foldl_append, List.foldl_cons, List.foldl_nil, ih, ofResults_concat]

/-- Every result is counted, and only once. -/
theorem counts_ofResults :
    (ofResults out results).generated + (ofResults out results).skipped + (ofResults out results).errors =
      results.length := by
  induction results using List.reverseRecOn with
  | nil => rfl
  | append_singleton results r ih =>
    rw [ofResults_concat, List.length_append, List.length_singleton, ← ih]
    cases r.2 <;> simp only [add] <;> omega

/-- A batch fails as a whole when one of its results does. -/
theorem exitCode_ofResults : (ofResults out results).exitCode = 1 ↔ ∃ r ∈ results, r.2.isFailed = true := by
  have herrors : 0 < (ofResults out results).errors ↔ ∃ r ∈ results, r.2.isFailed = true := List.countP_pos_iff
  rw [← herrors]
  unfold exitCode
  split
  · rename_i hnone
    simp [hnone]
  · rename_i hsome
    simpa using Nat.pos_of_ne_zero hsome

/-- The reports of single results add up to the report of all. -/
theorem total_map_ofResults : total (results.map fun r => ofResults out [r]) = ofResults out results := by
  induction results with
  | nil => rfl
  | cons r results ih =>
    have hcons : ∀ reports, total (ofResults out [r] :: reports) =
        ⟨(ofResults out [r]).generated + (total reports).generated, (ofResults out [r]).skipped + (total reports).skipped,
          (ofResults out [r]).errors + (total reports).errors, (ofResults out [r]).outputs ++ (total reports).outputs⟩ :=
      fun _ => rfl
    rw [List.map_cons, hcons, ih]
    obtain ⟨module, outcome⟩ := r
    cases outcome <;>
      simp [ofResults, Outcome.isGenerated, Outcome.isSkipped, Outcome.isFailed, Nat.add_comm]

end BatchReport

/-! ## Runs -/

namespace Batch

section Visits

variable {m : Type → Type} [Monad m] [Host m] (log : Log) (api out : Path)

/-- Processes one module and logs what becomes of it, without counting it. -/
def visit (module : ModuleSpec) : m Outcome := do
  log.record .info logSource ("Processing: " ++ module.name ++ " (" ++ module.flagsText ++ ")")
  let outcome ← processModule log api (declarationPath out module) module
  match outcome with
  | .generated _ => return outcome
  | .skipped reason =>
    log.record .warning logSource ("  " ++ reason)
    return outcome
  | .failed reason =>
    log.record .error logSource ("  " ++ reason)
    return outcome

/-- Visits modules one after another. -/
def visits (modules : List ModuleSpec) : m (List BatchResult) := do
  log.record .info logSource
    ("Generating TypeScript declarations for " ++ Text.ofNat modules.length ++ " module(s)")
  modules.mapM fun module => (module, ·) <$> visit log api out module

variable [LawfulMonad m] {log api out}

/-- A step visits a module and counts what becomes of it. -/
theorem step_eq (report : BatchReport) (module : ModuleSpec) :
    (step log api out report module : m BatchReport) =
      report.add (declarationPath out module) <$> visit log api out module := by
  simp only [step, visit, map_bind]
  congr 1
  funext _
  congr 1
  funext outcome
  cases outcome <;> simp

/-- Steps visit modules and count what becomes of them. -/
theorem foldlM_step (modules : List ModuleSpec) (report : BatchReport) :
    (modules.foldlM (step log api out) report : m BatchReport) =
      (fun results => results.foldl (fun report r => report.add (declarationPath out r.1) r.2) report) <$>
        modules.mapM fun module => (module, ·) <$> visit log api out module := by
  induction modules generalizing report with
  | nil => simp
  | cons module modules ih =>
    rw [List.foldlM_cons, List.mapM_cons, step_eq]
    simp only [bind_map_left, map_bind, ih, bind_pure_comp, Functor.map_map, List.foldl_cons]

/-- A run visits the selected modules and reports the results. -/
theorem run_eq {settings : Settings} {name : Option Text} {modules : List ModuleSpec}
    (hdirectories : settings.directories = .ok (api, out)) (hselect : settings.registry.select name = .ok modules) :
    (run log settings name : m (Except BatchError BatchReport)) = do
      let results ← visits log api out modules
      log.record .info logSource ("Done! " ++ (BatchReport.ofResults out results).countsText)
      return .ok (BatchReport.ofResults out results) := by
  simp only [run, hdirectories, hselect, visits, foldlM_step, BatchReport.foldl_add, bind_map_left, bind_assoc]

end Visits

/-- What is made of each answer can be made of all of them at the end. -/
theorem mapM_map_answers {m : Type → Type} [Monad m] [LawfulMonad m] {ι α β : Type} (f : ι → m α) (g : α → β)
    (items : List ι) : (items.mapM fun i => g <$> f i) = List.map g <$> items.mapM f := by
  induction items with
  | nil => simp
  | cons i items ih =>
    rw [List.mapM_cons, List.mapM_cons, ih]
    simp only [bind_map_left, map_bind, map_pure, List.map_cons]

/-- The results of programs for modules are about the modules, in their order. -/
theorem map_fst_mapM {σ : Type} (f : ModuleSpec → StateM σ Outcome) (modules : List ModuleSpec) (s : σ) :
    ((modules.mapM fun module => (module, ·) <$> f module).run s).1.map (·.1) = modules := by
  induction modules generalizing s with
  | nil => rfl
  | cons module modules ih =>
    rw [List.mapM_cons]
    exact congrArg (module :: ·) (ih ((f module).run s).2)

end Batch

end LuaTypings
