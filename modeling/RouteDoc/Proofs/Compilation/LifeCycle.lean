/-
  The life cycle of a compilation: what is left after any sequence of calls.

  1. **Calls** — `Call`: compile modules, compile source files, abort. A call `Discards` if it aborts, or
     if it is given a source file that cannot be read; every other call `Compiles`.
  2. **One call** — a compilation that is `Discarded` stays so whatever is called (`Discarded.apply`); a
     call that discards makes it so (`discarded_apply`), and one that compiles completes every other
     compilation (`stage_apply`).
  3. **A run** — `Discarded.foldl` and `stage_foldl` say the same of any number of calls. `life_cycle`
     says what the routes and the answer of `finalize` are after any run.
-/
import RouteDoc.Compilation

namespace RouteDoc.Compilation

/-! ## Calls -/

/-- A call on a compilation. -/
inductive Call where
  | compile (modules : List Module)
  | compileSources (files : Files) (sources : List SourceFile)
  | abort

/-- Every source file can be read as a module. -/
def Readable (files : Files) (sources : List SourceFile) : Prop :=
  ∀ source ∈ sources, ∃ m, parseSource files source = .ok m

namespace Call

/-- The compilation after a call. -/
def apply (c : Compilation) : Call → Compilation
  | compile modules => c.compile modules
  | compileSources files sources => (c.compileSources files sources).1
  | abort => c.abort

/-- Modules are compiled, given as such or read from source files. -/
def Compiles : Call → Prop
  | compile _ => True
  | compileSources files sources => Readable files sources
  | abort => False

/-- The call aborts, or some source file that it is given cannot be read. -/
def Discards : Call → Prop
  | compile _ => False
  | compileSources files sources => ¬ Readable files sources
  | abort => True

theorem compiles_iff {call : Call} : call.Compiles ↔ ¬ call.Discards := by
  cases call with
  | compile modules => exact iff_of_true trivial id
  | compileSources files sources => exact Classical.not_not.symm
  | abort => exact iff_of_false id fun h => h trivial

end Call

/-- The compilation is aborted and has no routes. -/
structure Discarded (c : Compilation) : Prop where
  stage : c.stage = .aborted
  graph : c.graph = .empty

/-! ## Source files -/

section Sources

variable {files : Files}

/-- Source files that can all be read have modules. -/
theorem exists_parseSources : ∀ {sources : List SourceFile}, Readable files sources →
    ∃ modules, parseSources files sources = .ok modules
  | [], _ => ⟨[], rfl⟩
  | source :: sources, h => by
    obtain ⟨m, hm⟩ := h source List.mem_cons_self
    have hrest : Readable files sources := fun s hs => h s (List.mem_cons_of_mem _ hs)
    obtain ⟨modules, hmodules⟩ := exists_parseSources hrest
    refine ⟨m :: modules, ?_⟩
    rw [parseSources, hm, hmodules]
    rfl

/-- Only source files that can all be read have modules. -/
theorem readable_of_parseSources : ∀ {sources : List SourceFile} {modules : List Module},
    parseSources files sources = .ok modules → Readable files sources
  | [], _, _ => fun _ hs => nomatch hs
  | source :: sources, modules, h => by
    rw [parseSources] at h
    cases hm : parseSource files source with
    | error e =>
      rw [hm] at h
      exact nomatch h
    | ok m =>
      cases hrest : parseSources files sources with
      | error e =>
        rw [hm, hrest] at h
        exact nomatch h
      | ok rest =>
        intro s hs
        rcases List.mem_cons.mp hs with rfl | hs
        · exact ⟨m, hm⟩
        · exact readable_of_parseSources hrest s hs

end Sources

/-! ## One call -/

variable {c : Compilation}

/-- No call changes the options. -/
theorem options_apply (c : Compilation) (call : Call) : (call.apply c).options = c.options := by
  have hcompile : ∀ modules, (c.compile modules).options = c.options := by
    intro modules
    rw [compile]
    split <;> rfl
  cases call with
  | abort => rfl
  | compile modules => exact hcompile modules
  | compileSources files sources =>
    rw [Call.apply, compileSources]
    split
    · rfl
    · cases parseSources files sources with
      | ok modules => exact hcompile modules
      | error e => rfl

/-- A disabled compilation gets no routes. -/
theorem graph_apply (h : c.options.enabled = false) (hgraph : c.graph = .empty) (call : Call) :
    (call.apply c).graph = .empty := by
  cases call with
  | abort => rfl
  | compile modules => simpa [Call.apply, compile, h] using hgraph
  | compileSources files sources => simpa [Call.apply, compileSources, h] using hgraph

section Enabled

variable (henabled : c.options.enabled = true)
include henabled

theorem compileSources_of_ok {files : Files} {sources : List SourceFile} {modules : List Module}
    (h : parseSources files sources = .ok modules) :
    (c.compileSources files sources).1 = c.compile modules := by
  simp [compileSources, henabled, h]

theorem discarded_compileSources {files : Files} {sources : List SourceFile} {e : String × Error}
    (h : parseSources files sources = .error e) : (c.compileSources files sources).1.Discarded := by
  have hfailed : (c.compileSources files sources).1
      = { c.abort with events := c.events ++ [.failed e.1] } := by
    simp [compileSources, henabled, h]
  rw [hfailed]
  exact ⟨rfl, rfl⟩

/-- **A discarded compilation stays discarded.** -/
theorem Discarded.apply (h : c.Discarded) (call : Call) : (call.apply c).Discarded := by
  have hcompile : ∀ modules, (c.compile modules).Discarded := by
    intro modules
    rw [compile, if_pos (by simp [h.stage])]
    exact h
  cases call with
  | abort => exact ⟨rfl, rfl⟩
  | compile modules => exact hcompile modules
  | compileSources files sources =>
    cases hparse : parseSources files sources with
    | ok modules =>
      rw [Call.apply, compileSources_of_ok henabled hparse]
      exact hcompile modules
    | error e => exact discarded_compileSources henabled hparse

/-- **A call that discards** leaves nothing, whatever was there. -/
theorem discarded_apply {call : Call} (h : call.Discards) : (call.apply c).Discarded := by
  cases call with
  | abort => exact ⟨rfl, rfl⟩
  | compile modules => exact absurd h id
  | compileSources files sources =>
    cases hparse : parseSources files sources with
    | ok modules => exact absurd (readable_of_parseSources hparse) h
    | error e => exact discarded_compileSources henabled hparse

/-- **A call that compiles** completes every compilation that is not aborted. -/
theorem stage_apply {call : Call} (h : call.Compiles) (hstage : c.stage ≠ .aborted) :
    (call.apply c).stage = .completed := by
  have hcompile : ∀ modules, (c.compile modules).stage = .completed := by
    intro modules
    rw [compile, if_neg (by simp [henabled, hstage])]
    rfl
  cases call with
  | abort => exact absurd h id
  | compile modules => exact hcompile modules
  | compileSources files sources =>
    obtain ⟨modules, hmodules⟩ := exists_parseSources h
    rw [Call.apply, compileSources_of_ok henabled hmodules]
    exact hcompile modules

end Enabled

/-! ## A run -/

theorem options_foldl : ∀ (calls : List Call) (c : Compilation),
    (calls.foldl Call.apply c).options = c.options
  | [], _ => rfl
  | call :: calls, c => (options_foldl calls (call.apply c)).trans (options_apply c call)

theorem graph_foldl : ∀ (calls : List Call) {c : Compilation}, c.options.enabled = false →
    c.graph = .empty → (calls.foldl Call.apply c).graph = .empty
  | [], _, _, hgraph => hgraph
  | call :: calls, c, h, hgraph => by
    have hnext : (call.apply c).options.enabled = false := by rw [options_apply, h]
    exact graph_foldl calls hnext (graph_apply h hgraph call)

theorem Discarded.foldl : ∀ (calls : List Call) {c : Compilation}, c.options.enabled = true →
    c.Discarded → (calls.foldl Call.apply c).Discarded
  | [], _, _, h => h
  | call :: calls, c, henabled, h => by
    have hnext : (call.apply c).options.enabled = true := by rw [options_apply, henabled]
    exact Discarded.foldl calls hnext (h.apply henabled call)

/-- One call that discards is enough, whatever comes before and after it. -/
theorem discarded_foldl : ∀ (calls : List Call) {c : Compilation}, c.options.enabled = true →
    (∃ call ∈ calls, call.Discards) → (calls.foldl Call.apply c).Discarded
  | [], _, _, h => by
    obtain ⟨call, hcall, _⟩ := h
    exact nomatch hcall
  | call :: calls, c, henabled, h => by
    have hnext : (call.apply c).options.enabled = true := by rw [options_apply, henabled]
    obtain ⟨d, hd, hdiscards⟩ := h
    rcases List.mem_cons.mp hd with rfl | hd
    · exact (discarded_apply henabled hdiscards).foldl calls hnext
    · exact discarded_foldl calls hnext ⟨d, hd, hdiscards⟩

/-- Calls that all compile complete a compilation, if there is one. -/
theorem stage_foldl : ∀ {calls : List Call} {c : Compilation}, c.options.enabled = true →
    c.stage ≠ .aborted → (∀ call ∈ calls, call.Compiles) →
      (calls.foldl Call.apply c).stage = if calls = [] then c.stage else .completed
  | [], _, _, _, _ => rfl
  | call :: calls, c, henabled, hstage, h => by
    have hnext : (call.apply c).options.enabled = true := by rw [options_apply, henabled]
    have hcompleted : (call.apply c).stage = .completed :=
      stage_apply henabled (h call List.mem_cons_self) hstage
    have hrest : ∀ d ∈ calls, d.Compiles := fun d hd => h d (List.mem_cons_of_mem _ hd)
    have hnotAborted : (call.apply c).stage ≠ .aborted := by
      rw [hcompleted]
      exact nofun
    rw [List.foldl_cons, stage_foldl hnext hnotAborted hrest, hcompleted, ite_self,
      if_neg (List.cons_ne_nil _ _)]

/-- A new compilation after some calls. -/
def run (options : Options) (calls : List Call) : Compilation :=
  calls.foldl Call.apply (start options)

/-- Something is compiled, and nothing is discarded. -/
def Completes (calls : List Call) : Prop :=
  (∃ call ∈ calls, call.Compiles) ∧ ∀ call ∈ calls, ¬ call.Discards

theorem Discarded.finalize_eq (h : c.Discarded) (henabled : c.options.enabled = true) :
    c.finalize = .error .aborted := by
  simp [finalize, henabled, h.stage]

/-- Calls that complete a new compilation lead to its document. -/
theorem finalize_of_completes {options : Options} {calls : List Call} (henabled : options.enabled = true)
    (h : Completes calls) :
    (run options calls).finalize
      = .ok (some (Document.build options (run options calls).index (run options calls).graph)) := by
  obtain ⟨⟨call, hcall, _⟩, hnone⟩ := h
  have hall : ∀ call ∈ calls, call.Compiles := fun call hcall => Call.compiles_iff.mpr (hnone call hcall)
  have hoptions : (run options calls).options = options := options_foldl calls (start options)
  have hpending : (start options).stage ≠ .aborted := by
    show Stage.pending ≠ Stage.aborted
    decide
  have hstage : (run options calls).stage = .completed := by
    rw [run, stage_foldl henabled hpending hall, if_neg (List.ne_nil_of_mem hcall)]
  simp [finalize, hoptions, henabled, hstage]

/-- Calls that do not complete a new compilation lead to no document. -/
theorem finalize_of_not_completes {options : Options} {calls : List Call}
    (henabled : options.enabled = true) (h : ¬ Completes calls) :
    (run options calls).finalize = .error .aborted := by
  have hoptions : (run options calls).options = options := options_foldl calls (start options)
  by_cases hdiscards : ∃ call ∈ calls, call.Discards
  · have hdiscarded : (run options calls).Discarded := discarded_foldl calls henabled hdiscards
    exact hdiscarded.finalize_eq (by rw [hoptions, henabled])
  · -- every call compiles, so there can be none
    have hnone : ∀ call ∈ calls, ¬ call.Discards := by
      intro call hcall hd
      exact hdiscards ⟨call, hcall, hd⟩
    cases calls with
    | nil => simp [run, finalize, start, henabled]
    | cons call calls =>
      have hcompiles : call.Compiles := Call.compiles_iff.mpr (hnone call List.mem_cons_self)
      exact absurd ⟨⟨call, List.mem_cons_self, hcompiles⟩, hnone⟩ h

/-- **The life cycle of a compilation**, after any calls on a new one. If it is disabled, it has no routes
    and `finalize` answers that there is nothing to document. If it is enabled, `finalize` gives a
    document exactly if something was compiled and nothing discarded, and fails otherwise; and once a call
    has discarded, there are no routes and `finalize` fails, whatever is called later. -/
theorem life_cycle (options : Options) (calls : List Call) :
    (options.enabled = false →
      (run options calls).graph = .empty ∧ (run options calls).finalize = .ok none)
    ∧ (options.enabled = true →
      ((∃ d, (run options calls).finalize = .ok (some d)) ↔ Completes calls)
      ∧ (¬ Completes calls → (run options calls).finalize = .error .aborted)
      ∧ ((∃ call ∈ calls, call.Discards) → ∀ later,
          (run options (calls ++ later)).graph = .empty
            ∧ (run options (calls ++ later)).finalize = .error .aborted)) := by
  have hoptions : ∀ calls, (run options calls).options = options :=
    fun calls => options_foldl calls (start options)
  refine ⟨fun hdisabled => ⟨graph_foldl calls hdisabled rfl, ?_⟩,
    fun henabled => ⟨⟨?_, ?_⟩, finalize_of_not_completes henabled, ?_⟩⟩
  · simp [finalize, hoptions, hdisabled]
  · rintro ⟨d, hd⟩
    refine Classical.byContradiction fun hnot => ?_
    rw [finalize_of_not_completes henabled hnot] at hd
    exact nomatch hd
  · intro h
    exact ⟨_, finalize_of_completes henabled h⟩
  · rintro ⟨call, hcall, hd⟩ later
    have hdiscarded : (run options (calls ++ later)).Discarded :=
      discarded_foldl (calls ++ later) henabled ⟨call, List.mem_append_left _ hcall, hd⟩
    exact ⟨hdiscarded.graph, hdiscarded.finalize_eq (by rw [hoptions, henabled])⟩

end RouteDoc.Compilation
