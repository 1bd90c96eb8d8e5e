import Mathlib
import Phototaxis.Proofs.Scenario.Rows
import Phototaxis.Proofs.Table.Lines

/-!
# Rows and their lines

A table that is refused for a row calls this row by the number of a line, as if every record had a
line of its own and no other lines were there. So the row begins as many lines further down as there
are empty lines and line breaks in cells before it, and it is called by the line on which it begins
only if there are none (`Table.refused_by_count`).
-/

namespace Phototaxis.Table

variable {α : Type} {layout : Layout} {item : String → List String → Except ScenarioError α}
  {bytes mark : List UInt8} {label : String} {fault : RecordFault} {header row : Stretch}
  {before after : List Stretch}

/-- Whether a table is refused for a row under a name: the rows before it give items, and it has all
the cells that are wanted, but they give none. -/
structure Refused (layout : Layout) (item : String → List String → Except ScenarioError α)
    (label : String) (fault : RecordFault) (header : Stretch) (before : List Stretch)
    (row : Stretch) : Prop where
  before : ∀ stretch ∈ before,
    ∃ a, itemOf item label (layout.row header.record stretch.record) = .ok a
  row : ∃ cells, layout.row header.record row.record = .ok cells ∧
    item label cells = .error (.record label fault)

/-- Whether the name of a row counts the rows before it. If all lines end in a line feed, the row
begins as many lines further down as there are empty lines and line breaks in cells before it. -/
structure CountsRows (label : String) (mark : List UInt8) (header : Stretch)
    (before : List Stretch) (row : Stretch) : Prop where
  label_eq : label = rowLabel before.length
  line_eq : EndInFeeds (before ++ [row]) → lineBehind mark (header :: before) row
      = before.length + 2 + (emptyLines header (before ++ [row]) + cellBreaks (header :: before))
  names_line_iff : EndInFeeds (before ++ [row]) →
    (label = "CSV line " ++ toString (lineBehind mark (header :: before) row) ↔
      emptyLines header (before ++ [row]) = 0 ∧ cellBreaks (header :: before) = 0)

/-- Whether a table is refused for a row under a name that counts rows. -/
def RefusedByCount (layout : Layout) (item : String → List String → Except ScenarioError α)
    (bytes : List UInt8) (label : String) (fault : RecordFault) : Prop :=
  ∃ mark header before row after, Falls bytes mark (header :: (before ++ row :: after)) ∧
    Refused layout item label fault header before row ∧ CountsRows label mark header before row

theorem rowLabel_eq_iff {index line : ℕ} :
    rowLabel index = "CSV line " ++ toString line ↔ index + 2 = line := by
  rw [rowLabel, String.append_right_inj]
  exact Nat.repr_inj

theorem countsRows_of_falls (h : Falls bytes mark (header :: (before ++ row :: after))) :
    CountsRows (rowLabel before.length) mark header before row := by
  refine ⟨rfl, h.lineBehind_eq, fun hfeeds => ?_⟩
  rw [rowLabel_eq_iff, h.lineBehind_eq hfeeds]
  omega

/-- **A table is refused for the first row that gives no item**, under the number of the rows before
it. -/
theorem refusedByCount_of_eq_error (hitem : ∀ cells, Record.Labelled (item · cells))
    (h : itemsFrom item 0 (layout.rows bytes) = .error (.record label fault)) :
    RefusedByCount layout item bytes label fault := by
  obtain ⟨mark, stretches, hfalls⟩ := exists_falls bytes
  cases stretches with
  | nil =>
    rw [Layout.rows, hfalls.records_eq] at h
    cases h
  | cons header rows =>
    rw [Layout.rows_of_records hfalls.records_eq, List.map_map, itemsFrom_eq_error_iff hitem label]
      at h
    obtain ⟨before, row, after, rfl, hbefore, hrow⟩ := h
    rw [Nat.zero_add, Function.comp_apply] at hrow
    refine ⟨mark, header, before, row, after, hfalls, ?_⟩
    cases hcells : layout.row header.record row.record with
    | error fault =>
      rw [hcells] at hrow
      cases hrow
    | ok cells =>
      rw [hcells] at hrow
      have hlabel : label = rowLabel before.length := (hitem cells).label_eq hrow
      subst hlabel
      exact ⟨⟨hbefore, cells, hcells, hrow⟩, countsRows_of_falls hfalls⟩

/-- **Rows are called by their number**, and so by their line only if there are no empty lines and
no line breaks in cells before them. -/
theorem refused_by_count (bytes : List UInt8) (label : String) (fault : RecordFault) :
    (lights bytes = .error (.record label fault) →
      RefusedByCount lightLayout lightOfRow bytes label fault) ∧
    (vehicles bytes = .error (.record label fault) →
      RefusedByCount vehicleLayout vehicleOfRow bytes label fault) :=
  ⟨refusedByCount_of_eq_error labelled_lightOfRow,
    refusedByCount_of_eq_error labelled_vehicleOfRow⟩

/-- A table with an empty line, and with a line break in a cell. -/
def spacedTable : List UInt8 := Text.encodeUtf8 "x,y,intensity\n\n1,2,\"3\n\"\n1,2,z\n"

/-- A table with a line break in the header, and with other line ends. -/
def brokenTable : List UInt8 :=
  Text.encodeUtf8 "x,y,\"heading\n\",speed,behavior\r\n0,0,0,-1,follower\r\n"

theorem lights_spacedTable :
    lights spacedTable = .error (.record "CSV line 3" (.notNumber "intensity" "z")) := by
  have hrows : lightLayout.rows spacedTable = [.ok ["1", "2", "3"], .ok ["1", "2", "z"]] := by
    decide +kernel
  rw [lights, hrows]
  rfl

theorem vehicles_brokenTable :
    vehicles brokenTable = .error (.record "CSV line 2" (.negativeSpeed (-1.0))) := by
  have hrows : vehicleLayout.rows brokenTable = [.ok ["0", "0", "0", "-1", "follower"]] := by
    decide +kernel
  rw [vehicles, hrows]
  rfl

/-- Neither of the two rows begins on the line that it is called by. -/
theorem refused_by_count_spaced :
    (lights spacedTable = .error (.record "CSV line 3" (.notNumber "intensity" "z")) ∧
      RefusedByCount lightLayout lightOfRow spacedTable "CSV line 3"
        (.notNumber "intensity" "z")) ∧
    vehicles brokenTable = .error (.record "CSV line 2" (.negativeSpeed (-1.0))) ∧
      RefusedByCount vehicleLayout vehicleOfRow brokenTable "CSV line 2"
        (.negativeSpeed (-1.0)) :=
  ⟨⟨lights_spacedTable, (refused_by_count spacedTable _ _).1 lights_spacedTable⟩,
    vehicles_brokenTable, (refused_by_count brokenTable _ _).2 vehicles_brokenTable⟩

/-! ## A row on another line -/

/-- A table with an empty line behind its header. -/
def gappedTable : List UInt8 := Text.encodeUtf8 "x,y,intensity\n\n1,2,z\n"

/-- The header of that table. -/
def gappedHeader : Stretch :=
  ⟨[], Text.encodeUtf8 "x,y,intensity",
    ⟨⟨0, 1, 0⟩, [Text.encodeUtf8 "x", Text.encodeUtf8 "y", Text.encodeUtf8 "intensity"]⟩⟩

/-- The only row of that table. -/
def gappedRow : Stretch :=
  ⟨Text.encodeUtf8 "\n\n", Text.encodeUtf8 "1,2,z",
    ⟨⟨1, 2, 14⟩, [Text.encodeUtf8 "1", Text.encodeUtf8 "2", Text.encodeUtf8 "z"]⟩⟩

theorem lights_gappedTable :
    lights gappedTable = .error (.record "CSV line 2" (.notNumber "intensity" "z")) := by
  have hrows : lightLayout.rows gappedTable = [.ok ["1", "2", "z"]] := by decide +kernel
  rw [lights, hrows]
  rfl

theorem falls_gappedTable : Falls gappedTable [] [gappedHeader, gappedRow] := by
  have hheader : gappedHeader.Sound :=
    ⟨List.forall_mem_nil _, ⟨_, _, rfl, rfl⟩, by decide +kernel, by decide +kernel⟩
  have hrow : gappedRow.Sound :=
    ⟨List.all_eq_true.mp rfl, ⟨_, _, rfl, rfl⟩, by decide +kernel, by decide +kernel⟩
  refine ⟨.inl rfl, ?_, ⟨[0x0A], List.all_eq_true.mp rfl, by decide +kernel⟩, by decide +kernel⟩
  exact List.forall_mem_cons.mpr ⟨hheader, List.forall_mem_singleton.mpr hrow⟩

/-- **A row is called by a line on which it does not begin.** -/
theorem called_by_empty_line : ¬ ∀ (bytes mark : List UInt8) (label : String) (fault : RecordFault)
    (header : Stretch) (before : List Stretch) (row : Stretch) (after : List Stretch),
    lights bytes = .error (.record label fault) →
      Falls bytes mark (header :: (before ++ row :: after)) →
      Refused lightLayout lightOfRow label fault header before row →
      label = "CSV line " ++ toString (lineBehind mark (header :: before) row) := by
  intro h
  have hrefused : Refused lightLayout lightOfRow "CSV line 2" (.notNumber "intensity" "z")
      gappedHeader [] gappedRow :=
    ⟨List.forall_mem_nil _, ["1", "2", "z"], by decide +kernel, rfl⟩
  have hline : lineBehind [] [gappedHeader] gappedRow = 3 := by decide +kernel
  have hlabel := h gappedTable [] _ _ gappedHeader [] gappedRow [] lights_gappedTable
    falls_gappedTable hrefused
  rw [hline] at hlabel
  exact absurd hlabel (by decide +kernel)

end Phototaxis.Table
