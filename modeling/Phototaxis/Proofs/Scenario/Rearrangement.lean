import Mathlib
import Phototaxis.Proofs.Table.Columns
import Phototaxis.Scenario.Tables

/-!
# Rearranged tables

A table is read by the names of its columns. So it does not matter in which order the columns
stand, nor which others stand among them. Nor does it matter how the table was written: which
fields stand between quotes, and how its lines end. The items are the same, bit for bit and in
their order, or the same row is refused for the same reason under the same name
(`Table.rearranged_alike`): the fault that is found first depends on the order of the wanted
columns alone, which is not that of the table.

Whatever is done to the columns, those with a wanted name stay the same up to their order
(`Sheet.perm_wanted`), and a row is read by no others (`Sheet.byName_of_perm`).
-/

namespace Phototaxis.Table

/-- A column of a table with so many rows: its name, and a cell for every row. -/
structure Column (count : ℕ) where
  name : String
  cell : Fin count → String

/-- The name under which a column is looked for. -/
def Column.heading {count : ℕ} (column : Column count) : String := Text.trim column.name

/-- A table with so many rows, column by column. -/
abbrev Sheet (count : ℕ) : Type := List (Column count)

namespace Sheet

variable {count : ℕ} {layout : Layout} {sheet sheet' : Sheet count} {i : Fin count}
  {cells : List String} {text text' : String}

/-- The lines of a table, the header first. -/
def lines (sheet : Sheet count) : List (List String) :=
  sheet.map Column.name :: (List.finRange count).map fun i => sheet.map (·.cell i)

/-- The headings of the columns. -/
def headings (sheet : Sheet count) : List String := sheet.map Column.heading

/-- What the cells of a row say. -/
def texts (sheet : Sheet count) (i : Fin count) : List String :=
  sheet.map fun column => Text.trim (column.cell i)

/-- Whether a table has each wanted column once. -/
def Has (layout : Layout) (sheet : Sheet count) : Prop :=
  ∀ column ∈ layout.columns, sheet.headings.count column = 1

instance : Decidable (Has layout sheet) := inferInstanceAs (Decidable (∀ _ ∈ _, _))

/-- What may be done to the columns of a table: they may change places, and others than the wanted
ones may come and go. -/
inductive Rearranged (layout : Layout) {count : ℕ} : Sheet count → Sheet count → Prop
  | permuted {sheet sheet' : Sheet count} (h : sheet.Perm sheet') : Rearranged layout sheet sheet'
  | inserted (before after : Sheet count) {column : Column count}
      (h : column.heading ∉ layout.columns) :
      Rearranged layout (before ++ after) (before ++ column :: after)
  | removed (before after : Sheet count) {column : Column count}
      (h : column.heading ∉ layout.columns) :
      Rearranged layout (before ++ column :: after) (before ++ after)

/-- Whether a text is a table as it may be written, without a byte order mark. -/
structure WrittenAs (sheet : Sheet count) (text : String) : Prop where
  writes : WritesTable sheet.lines text.toList
  unmarked : ∀ column ∈ sheet, Unmarked column.name.toList

/-- Whether two texts are tables that differ in the arrangement of their columns, of which each
wanted one is there once. -/
inductive AlikeFor (layout : Layout) : String → String → Prop
  | intro {count : ℕ} {sheet sheet' : Sheet count} {text text' : String} (has : Has layout sheet)
      (rearranged : Relation.ReflTransGen (Rearranged layout) sheet sheet')
      (written : WrittenAs sheet text) (written' : WrittenAs sheet' text') :
      AlikeFor layout text text'

/-! ## Wanted columns -/

/-- The columns that are wanted. -/
def wanted (layout : Layout) (sheet : Sheet count) : Sheet count :=
  sheet.filter fun column => column.heading ∈ layout.columns

theorem Rearranged.perm_wanted (h : Rearranged layout sheet sheet') :
    (wanted layout sheet).Perm (wanted layout sheet') := by
  cases h with
  | permuted h => exact h.filter _
  | inserted before after h =>
    rw [wanted, wanted, List.filter_append, List.filter_append, List.filter_cons_of_neg (by simpa)]
  | removed before after h =>
    rw [wanted, wanted, List.filter_append, List.filter_append, List.filter_cons_of_neg (by simpa)]

/-- **The wanted columns stay**, up to their order. -/
theorem perm_wanted (h : Relation.ReflTransGen (Rearranged layout) sheet sheet') :
    (wanted layout sheet).Perm (wanted layout sheet') := by
  induction h with
  | refl => exact .refl _
  | tail _ hlast ih => exact ih.trans hlast.perm_wanted

theorem mem_wanted {column : Column count} :
    column ∈ wanted layout sheet ↔ column ∈ sheet ∧ column.heading ∈ layout.columns := by
  rw [wanted, List.mem_filter, decide_eq_true_iff]

theorem count_wanted {name : String} (h : name ∈ layout.columns) :
    (wanted layout sheet).headings.count name = sheet.headings.count name := by
  rw [headings, headings, List.count_eq_countP, List.count_eq_countP, List.countP_map,
    List.countP_map, wanted, List.countP_filter]
  refine List.countP_congr fun column _ => ?_
  rw [Bool.and_eq_true, decide_eq_true_iff, Function.comp_apply, beq_iff_eq]
  exact and_iff_left_of_imp fun hheading => hheading ▸ h

theorem mem_cells {name cell : String} : (name, cell) ∈ sheet.headings.zip (sheet.texts i) ↔
    ∃ column ∈ sheet, column.heading = name ∧ Text.trim (column.cell i) = cell := by
  rw [headings, texts, List.zip_map', List.mem_map]
  simp only [Prod.mk.injEq]

theorem Has.of_perm (h : Has layout sheet)
    (hperm : (wanted layout sheet).Perm (wanted layout sheet')) : Has layout sheet' := by
  intro name hname
  rw [← count_wanted hname, headings, ← (hperm.map Column.heading).count_eq]
  exact (count_wanted hname).trans (h name hname)

/-- **A row is read by the wanted columns**, in whatever order they stand. -/
theorem byName_of_perm (hperm : (wanted layout sheet).Perm (wanted layout sheet'))
    (h : layout.ByName sheet.headings (sheet.texts i) cells) :
    layout.ByName sheet'.headings (sheet'.texts i) cells := by
  have hcells := h.cells
  rw [List.forall₂_iff_zip] at hcells
  refine ⟨Has.of_perm h.count_eq_one hperm, List.forall₂_iff_zip.mpr ⟨hcells.1, ?_⟩⟩
  intro name cell hmem
  obtain ⟨column, hcolumn, hheading, hcell⟩ := mem_cells.mp (hcells.2 hmem)
  have hwanted : column ∈ wanted layout sheet :=
    mem_wanted.mpr ⟨hcolumn, hheading ▸ (List.of_mem_zip hmem).1⟩
  exact mem_cells.mpr ⟨column, (mem_wanted.mp (hperm.mem_iff.mp hwanted)).1, hheading, hcell⟩

theorem Has.mem_headings (h : Has layout sheet) {name : String} (hname : name ∈ layout.columns) :
    name ∈ sheet.headings := by
  rw [← List.count_pos_iff, h name hname]
  exact Nat.one_pos

/-- If each wanted column is there once, every row has its cells. -/
theorem Has.exists_cells (h : Has layout sheet) (i : Fin count) :
    ∃ cells, layout.ByName sheet.headings (sheet.texts i) cells := by
  have hcell : ∀ name ∈ layout.columns,
      ∃ cell, (name, cell) ∈ sheet.headings.zip (sheet.texts i) := by
    intro name hname
    obtain ⟨column, hcolumn, rfl⟩ := List.mem_map.mp (h.mem_headings hname)
    exact ⟨_, mem_cells.mpr ⟨column, hcolumn, rfl, rfl⟩⟩
  choose! cell hcell using hcell
  exact ⟨layout.columns.map cell, h, List.forall₂_map_right_iff.mpr (List.forall₂_same.mpr hcell)⟩

/-! ## Rows -/

/-- Two wanted columns make two columns. -/
theorem Has.length_le (h : Has layout sheet) (hnodup : layout.columns.Nodup) :
    layout.columns.length ≤ sheet.length := by
  have hsubset : layout.columns ⊆ sheet.headings := fun _ hname => h.mem_headings hname
  exact (hnodup.subperm hsubset).length_le.trans (List.length_map _).le

theorem isRecord_of_mem_lines (htwo : 2 ≤ sheet.length) :
    ∀ line ∈ sheet.lines, IsRecord line := by
  intro line hline
  have hlength : line.length = sheet.length := by
    rw [lines, List.mem_cons, List.mem_map] at hline
    rcases hline with rfl | ⟨i, -, rfl⟩ <;> exact List.length_map _
  exact .of_length (hlength ▸ htwo)

/-- The writer writes tables. -/
theorem WrittenAs.of_written (htext : text.toList = written sheet.lines) (htwo : 2 ≤ sheet.length)
    (hmark : ∀ column ∈ sheet, Unmarked column.name.toList) : sheet.WrittenAs text :=
  ⟨htext ▸ writesTable_written (isRecord_of_mem_lines htwo), hmark⟩

/-- **The rows of a table** are read from its cells under the wanted names. -/
theorem rows_eq (h : sheet.WrittenAs text) (htwo : 2 ≤ sheet.length)
    {cells : Fin count → List String}
    (hcells : ∀ i, layout.ByName sheet.headings (sheet.texts i) (cells i)) :
    layout.rows text.toUTF8.toList = ((List.finRange count).map cells).map .ok := by
  have hmark : ∀ name ∈ sheet.map Column.name, Unmarked name.toList :=
    List.forall_mem_map.mpr h.unmarked
  have hread := fields_records_table h.writes (isRecord_of_mem_lines htwo) hmark
  rw [Text.toList_toUTF8]
  refine Layout.rows_of_lines hread ?_
  rw [List.forall₂_map_left_iff, List.forall₂_map_right_iff, List.forall₂_same]
  intro i _
  rw [List.length_map, List.length_map, List.map_map, List.map_map]
  exact ⟨rfl, hcells i⟩

theorem rows_eq_of_alike (hnodup : layout.columns.Nodup) (htwo : 2 ≤ layout.columns.length)
    (h : AlikeFor layout text text') :
    layout.rows text.toUTF8.toList = layout.rows text'.toUTF8.toList := by
  cases h with
  | @intro count sheet sheet' _ _ has rearranged written written' =>
    have hperm := perm_wanted rearranged
    choose cells hcells using has.exists_cells
    have hcells' := fun i => byName_of_perm hperm (hcells i)
    have has' : Has layout sheet' := has.of_perm hperm
    rw [rows_eq written (htwo.trans (has.length_le hnodup)) hcells,
      rows_eq written' (htwo.trans (has'.length_le hnodup)) hcells']

end Sheet

/-- **Rearranged tables are read alike.** -/
theorem rearranged_alike :
    (∀ text text' : String, Sheet.AlikeFor lightLayout text text' →
      lights text.toUTF8.toList = lights text'.toUTF8.toList) ∧
    ∀ text text' : String, Sheet.AlikeFor vehicleLayout text text' →
      vehicles text.toUTF8.toList = vehicles text'.toUTF8.toList := by
  constructor
  · intro text text' h
    rw [lights, lights, Sheet.rows_eq_of_alike (by decide) (by decide) h]
  · intro text text' h
    rw [vehicles, vehicles, Sheet.rows_eq_of_alike (by decide) (by decide) h]

/-! ## Tables backwards -/

/-- A column that nobody asks for. -/
def remarkColumn : Column 1 := ⟨"remark", fun _ => "two lines,\nand \"quotes\""⟩

/-- A table turned around behind a remark. -/
def Sheet.backwards (sheet : Sheet 1) : Sheet 1 := (sheet ++ [remarkColumn]).reverse

theorem Sheet.rearranged_backwards {layout : Layout} (sheet : Sheet 1)
    (h : remarkColumn.heading ∉ layout.columns) :
    Relation.ReflTransGen (Rearranged layout) sheet sheet.backwards := by
  have hinserted := Rearranged.inserted sheet [] h
  rw [List.append_nil] at hinserted
  exact .tail (.single hinserted) (.permuted (List.reverse_perm _).symm)

/-- A table of one light. -/
def lampSheet : Sheet 1 :=
  [⟨"x", fun _ => "1"⟩, ⟨"y", fun _ => "2"⟩, ⟨"intensity", fun _ => "3"⟩]

/-- A table of one vehicle, of which two cells are wrong. -/
def wreckSheet : Sheet 1 :=
  [⟨"x", fun _ => "0"⟩, ⟨"y", fun _ => "0"⟩, ⟨"heading", fun _ => "north"⟩,
    ⟨"speed", fun _ => "-1"⟩, ⟨"behavior", fun _ => "follower"⟩]

/-- The table of the light backwards, with more quotes than it needs and other line ends. -/
def lampBackwards : String :=
  "remark,\"intensity\",y,x\r\n\"two lines,\nand \"\"quotes\"\"\",3,2,\"1\""

/-- The table of the vehicle backwards. -/
def wreckBackwards : String :=
  "remark,behavior,speed,heading,y,x\n" ++
    "\"two lines,\nand \"\"quotes\"\"\",follower,-1,north,0,0\n"

theorem writtenAs_lampBackwards : lampSheet.backwards.WrittenAs lampBackwards := by
  have hwrites : WritesTable lampSheet.backwards.lines _ :=
    .line (.cons (.bare (by decide)) (.cons .quoted
      (.cons (.bare (by decide)) (.last (.bare (by decide)))))) .returnAndFeed
    (.last (.cons .quoted (.cons (.bare (by decide)) (.cons (.bare (by decide)) (.last .quoted)))))
  refine ⟨?_, by decide⟩
  convert hwrites using 1
  decide +kernel

/-- A light and a refused vehicle are the same from right to left. -/
theorem rearranged_alike_backwards :
    (Sheet.AlikeFor lightLayout "x,y,intensity\n1,2,3\n" lampBackwards ∧
      lights "x,y,intensity\n1,2,3\n".toUTF8.toList = lights lampBackwards.toUTF8.toList) ∧
    Sheet.AlikeFor vehicleLayout "x,y,heading,speed,behavior\n0,0,north,-1,follower\n"
        wreckBackwards ∧
      vehicles "x,y,heading,speed,behavior\n0,0,north,-1,follower\n".toUTF8.toList
        = vehicles wreckBackwards.toUTF8.toList := by
  have hlamp : Sheet.AlikeFor lightLayout "x,y,intensity\n1,2,3\n" lampBackwards :=
    .intro (show lampSheet.Has lightLayout by decide) (lampSheet.rearranged_backwards (by decide))
      (.of_written (by decide +kernel) (by decide) (by decide)) writtenAs_lampBackwards
  have hwreck : Sheet.AlikeFor vehicleLayout
      "x,y,heading,speed,behavior\n0,0,north,-1,follower\n" wreckBackwards :=
    .intro (show wreckSheet.Has vehicleLayout by decide)
      (wreckSheet.rearranged_backwards (by decide))
      (.of_written (by decide +kernel) (by decide) (by decide))
      (.of_written (by decide +kernel) (by decide) (by decide))
  exact ⟨⟨hlamp, rearranged_alike.1 _ _ hlamp⟩, hwreck, rearranged_alike.2 _ _ hwreck⟩

end Phototaxis.Table
