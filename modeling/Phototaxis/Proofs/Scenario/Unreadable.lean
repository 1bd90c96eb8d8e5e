import Phototaxis.Proofs.Scenario.Assembly

/-!
# Tables that cannot be read

A table of a plan may be given by a path that leads to no file: the path cannot be opened,
or there is a directory at its end. Neither should leave a world.

A path that cannot be opened leaves none, whatever else the plan holds. But a directory
can be opened, and where it is read as a table it has no rows. So a plan with directories
in place of tables has the world that it has without these tables
(`Plan.scenario_readable`), and there is one if nothing else is at fault
(`Plan.world_from_directory`).
-/

namespace Phototaxis

namespace Files.Reader

/-- Whether a path leads to a file. -/
def isFile (read : Reader) (path : String) : Bool :=
  match read path with
  | .ok (.file _) => true
  | _ => false

/-- Whether there is no file to be read at a path. -/
def Unreadable (read : Reader) (path : String) : Prop := ∀ bytes, read path ≠ .ok (.file bytes)

end Files.Reader

namespace Plan

variable {plan : Plan} {read : Files.Reader} {path : String} {fault : FileFault}

/-- The paths of the tables. -/
def tables (plan : Plan) : List String := plan.lightsTable.toList ++ plan.vehiclesTable.toList

/-- The plan without the tables that are no files. -/
def readable (plan : Plan) (read : Files.Reader) : Plan :=
  { plan with
    lightsTable := plan.lightsTable.filter read.isFile
    vehiclesTable := plan.vehiclesTable.filter read.isFile }

/-- **A table that cannot be opened leaves no world.** -/
theorem error_of_unopened (hpath : path ∈ plan.tables) (h : read path = .error fault) :
    ∃ e, plan.scenario read = .error e := by
  have hload : ∀ {α : Type} (items : List UInt8 → Except ScenarioError (List α)),
      error? (Table.load read items path) = some (.unreadable fault) := by
    intro α items
    rw [Table.load, h]
    rfl
  have hsource : ∃ source ∈ plan.sources, source.fault? read = some (.unreadable fault) := by
    rcases List.mem_append.mp hpath with hlights | hvehicles
    · refine ⟨.lightsTable path, ?_, hload Table.lights⟩
      exact List.mem_append_left _ (List.mem_append_left _
        (List.mem_append_right _ (List.mem_map_of_mem hlights)))
    · refine ⟨.vehiclesTable path, ?_, hload Table.vehicles⟩
      exact List.mem_append_right _ (List.mem_map_of_mem hvehicles)
  have hfault : plan.sources.findSome? (Source.fault? read) ≠ none := by
    obtain ⟨source, hmem, hfault⟩ := hsource
    rw [Ne, List.findSome?_eq_none_iff]
    intro hnone
    rw [hnone source hmem] at hfault
    cases hfault
  obtain ⟨e, he⟩ := Option.ne_none_iff_exists'.mp hfault
  rw [← error?_scenario, error?_eq_some_iff] at he
  exact ⟨e, he⟩

/-- A directory has as many rows as no table at all. -/
theorem tableItems_filter {α : Type} (items : List UInt8 → Except ScenarioError (List α))
    {table : Option String} (h : ∀ path ∈ table.toList, ∀ fault, read path ≠ .error fault) :
    tableItems read items (table.filter read.isFile) = tableItems read items table := by
  cases table with
  | none => rfl
  | some path =>
    have hopen := h path (List.mem_singleton_self path)
    rw [Option.filter_some]
    show _ = Table.load read items path
    rw [Files.Reader.isFile, Table.load]
    cases hread : read path with
    | error fault => exact absurd hread (hopen fault)
    | ok entry =>
      cases entry with
      | directory => rfl
      | file bytes =>
        show Table.load read items path = items bytes
        rw [Table.load, hread]

/-- **Directories in place of tables do no harm**, and no good either. -/
theorem scenario_readable (h : ∀ path ∈ plan.tables, ∀ fault, read path ≠ .error fault) :
    (plan.readable read).scenario read = plan.scenario read := by
  have hlights := tableItems_filter Table.lights fun path hpath =>
    h path (List.mem_append_left _ hpath)
  have hvehicles := tableItems_filter Table.vehicles fun path hpath =>
    h path (List.mem_append_right _ hpath)
  unfold scenario givenLights givenVehicles readable
  dsimp only
  rw [hlights, hvehicles]
  rfl

/-- **When a plan with tables that cannot be read fails**: exactly if one of its tables cannot be
opened, or the plan without the tables that are no files fails. A directory can be opened, so by
itself it is no reason to fail; if all tables can be opened, the world is the one without the
directories. -/
theorem fails_iff_unopened (plan : Plan) (read : Files.Reader) :
    ((∃ e, plan.scenario read = .error e) ↔
      (∃ path ∈ plan.tables, ∃ fault, read path = .error fault) ∨
        ∃ e, (plan.readable read).scenario read = .error e) ∧
    ((∀ path ∈ plan.tables, ∀ fault, read path ≠ .error fault) →
      plan.scenario read = (plan.readable read).scenario read) := by
  refine ⟨?_, fun h => (scenario_readable h).symm⟩
  by_cases hopen : ∀ path ∈ plan.tables, ∀ fault, read path ≠ .error fault
  · rw [scenario_readable hopen]
    refine (or_iff_right ?_).symm
    rintro ⟨path, hpath, fault, h⟩
    exact hopen path hpath fault h
  · push Not at hopen
    obtain ⟨path, hpath, fault, h⟩ := hopen
    exact iff_of_true (error_of_unopened hpath h) (.inl ⟨path, hpath, fault, h⟩)

/-- A disk with a directory that holds an empty file. -/
def shelf : Files.Disk := .ofFiles [] [("d/x", [])]

/-- **An unreadable table can leave a world.** The directory cannot be read as a table of lights,
and a plan that asks for it has a world nevertheless, with nothing in it. -/
theorem world_from_directory : shelf.reader.Unreadable "d" ∧
    ({ lightsTable := some "d" } : Plan).scenario shelf.reader = .ok ⟨[], []⟩ := by
  have hdirectory : shelf.reader "d" = .ok .directory := rfl
  refine ⟨fun bytes h => ?_, rfl⟩
  rw [hdirectory] at h
  cases h

end Plan

end Phototaxis
