import Phototaxis.Proofs.Scenario.Grammar
import Phototaxis.Proofs.Table.Names

/-!
# Tables by their headers

A table is read row by row. If its header is text, then a row is an item if its cells under the
names of the wanted columns say this item, and each of these names stands in the header once
(`Layout.ReadAs.byName`). So a table with any items names all that it is read by.

A header that is no text is not refused. The first cells of a row are then taken for the wanted
ones, whatever stands above them (`Layout.ReadAs.byPosition`): one letter in another encoding makes
a table of `y` and `x` one of `x` and `y`. There is no third way to read a table
(`Table.read_by_header`).
-/

namespace Phototaxis

namespace Table

variable {α : Type} {layout : Layout} {say : List String → α → Prop} {bytes : List UInt8}
  {header row : RawRecord} {rows : List RawRecord} {first : α} {items : List α}
  {item : String → List String → Except ScenarioError α} {label : String}

/-- Whether a row has as many fields as the header, all of them text, among which the wanted cells
say an item. -/
structure RawRecord.Says (say : List String → α → Prop) (header : RawRecord)
    (wanted : List String → List String → Prop) (row : RawRecord) (item : α) : Prop where
  length_eq : row.fields.length = header.fields.length
  cells : ∃ fields cells, row.texts? = some fields ∧ wanted fields cells ∧ say cells item

namespace Layout

/-- Whether records, the header first, are read as items. -/
inductive ReadAs (layout : Layout) (say : List String → α → Prop) : List RawRecord → List α → Prop
  | empty : ReadAs layout say [] []
  | byName {header : RawRecord} {names : List String} {rows : List RawRecord} {items : List α}
      (hnames : header.texts? = some names)
      (hrows : List.Forall₂ (RawRecord.Says say header (layout.ByName names)) rows items) :
      ReadAs layout say (header :: rows) items
  | byPosition {header : RawRecord} {rows : List RawRecord} {items : List α}
      (hnames : header.texts? = none)
      (hrows : List.Forall₂ (RawRecord.Says say header layout.ByPosition) rows items) :
      ReadAs layout say (header :: rows) items

/-- Whether a header is text and names each wanted column once. -/
def NamedBy (layout : Layout) (header : RawRecord) : Prop :=
  ∃ names, header.texts? = some names ∧ ∀ column ∈ layout.columns, names.count column = 1

/-- Whether a table is read by its header: its items are those that its rows say, and if there are
any, then the header names what they are read by, unless it is no text. -/
structure ByHeader (layout : Layout) (say : List String → α → Prop) (bytes : List UInt8)
    (result : Except ScenarioError (List α)) : Prop where
  ok_iff : ∀ items, result = .ok items ↔ layout.ReadAs say (records bytes) items
  named : ∀ items, result = .ok items → items ≠ [] →
    ∃ header rows, records bytes = header :: rows ∧ (header.texts? = none ∨ layout.NamedBy header)

theorem itemOf_row_eq_ok_iff {a : α} (hitem : ∀ cells, item label cells = .ok a ↔ say cells a) :
    itemOf item label (layout.row header row) = .ok a ↔
      RawRecord.Says say header (fun fields cells => match header.texts? with
        | some names => layout.ByName names fields cells
        | none => layout.ByPosition fields cells) row a := by
  have hcells : itemOf item label (layout.row header row) = .ok a ↔
      ∃ cells, layout.row header row = .ok cells ∧ say cells a := by
    cases layout.row header row with
    | error fault =>
      refine iff_of_false nofun ?_
      rintro ⟨_, h, -⟩
      cases h
    | ok cells => simp only [itemOf, hitem, Except.ok.injEq, exists_eq_left']
  rw [hcells]
  simp only [row_eq_ok_iff]
  constructor
  · rintro ⟨cells, ⟨fields, hfields, hlength, hwanted⟩, hsay⟩
    exact ⟨hlength, fields, cells, hfields, hwanted, hsay⟩
  · rintro ⟨hlength, fields, cells, hfields, hwanted, hsay⟩
    exact ⟨cells, ⟨fields, hfields, hlength, hwanted⟩, hsay⟩

theorem itemsFrom_rows_eq_ok_iff (hitem : ∀ row, Record.Labelled (item · row))
    (hsay : ∀ cells a, item "" cells = .ok a ↔ say cells a) :
    itemsFrom item 0 (layout.rows bytes) = .ok items ↔
      layout.ReadAs say (records bytes) items := by
  cases hrecords : records bytes with
  | nil =>
    rw [rows, hrecords]
    constructor
    · rintro ⟨⟩
      exact .empty
    · rintro ⟨⟩
      rfl
  | cons header rows =>
    rw [rows_of_records hrecords, itemsFrom_eq_ok_iff hitem ""]
    simp only [itemOf_row_eq_ok_iff fun cells => hsay cells _]
    cases hnames : header.texts? with
    | some names =>
      refine ⟨.byName hnames, fun h => ?_⟩
      cases h with
      | byName hnames' hrows => exact Option.some.inj (hnames.symm.trans hnames') ▸ hrows
      | byPosition hnames' hrows => cases hnames.symm.trans hnames'
    | none =>
      refine ⟨.byPosition hnames, fun h => ?_⟩
      cases h with
      | byName hnames' hrows => cases hnames.symm.trans hnames'
      | byPosition hnames' hrows => exact hrows

/-- A row by its names needs them. -/
theorem ReadAs.named (h : layout.ReadAs say (header :: rows) (first :: items)) :
    header.texts? = none ∨ layout.NamedBy header := by
  cases h with
  | byName hnames hrows =>
    cases hrows with
    | cons hfirst _ =>
      obtain ⟨_, _, _, hwanted, _⟩ := hfirst.cells
      exact .inr ⟨_, hnames, hwanted.count_eq_one⟩
  | byPosition hnames _ => exact .inl hnames

theorem byHeader_itemsFrom (hitem : ∀ row, Record.Labelled (item · row))
    (hsay : ∀ cells a, item "" cells = .ok a ↔ say cells a) (bytes : List UInt8) :
    layout.ByHeader say bytes (itemsFrom item 0 (layout.rows bytes)) := by
  refine ⟨fun items => itemsFrom_rows_eq_ok_iff hitem hsay, fun items hitems hne => ?_⟩
  have hread : layout.ReadAs say (records bytes) items :=
    (itemsFrom_rows_eq_ok_iff hitem hsay).mp hitems
  obtain ⟨first, items, rfl⟩ := List.exists_cons_of_ne_nil hne
  cases hrecords : records bytes with
  | nil =>
    rw [hrecords] at hread
    exact nomatch hread
  | cons header rows =>
    rw [hrecords] at hread
    exact ⟨header, rows, rfl, hread.named⟩

end Layout

/-- **Tables are read by their headers.** -/
theorem read_by_header (bytes : List UInt8) :
    lightLayout.ByHeader Record.SayLight bytes (lights bytes) ∧
      vehicleLayout.ByHeader Record.SayVehicle bytes (vehicles bytes) := by
  constructor
  · exact Layout.byHeader_itemsFrom labelled_lightOfRow
      (fun cells => (Record.follows_lightOfRow "" cells).ok_iff) bytes
  · exact Layout.byHeader_itemsFrom labelled_vehicleOfRow
      (fun cells => (Record.follows_vehicleOfRow "" cells).ok_iff) bytes

/-- A header of `y`, `x` and a name with a letter of Latin-1. -/
def latinHeader : RawRecord := ⟨⟨0, 1, 0⟩, [[0x79], [0x78], Text.encodeUtf8 "intensit" ++ [0xE9]]⟩

/-- The table under that header. -/
def latinTable : List UInt8 :=
  Text.encodeUtf8 "y,x,intensit" ++ 0xE9 :: Text.encodeUtf8 "\n1,2,3\n"

theorem records_latinTable :
    records latinTable = [latinHeader, ⟨⟨1, 2, 14⟩, [[0x31], [0x32], [0x33]]⟩] := by
  decide +kernel

theorem lights_latinTable : lights latinTable = .ok [⟨⟨1.0, 2.0⟩, 3.0⟩] := by
  have hrows : lightLayout.rows latinTable = [.ok ["1", "2", "3"]] := by decide +kernel
  rw [lights, hrows]
  rfl

/-- **A table is read whose header does not name the intensity**, and its `y` is taken for `x`. -/
theorem read_without_names : ¬ ∀ (bytes : List UInt8) (lights : List Light),
    Table.lights bytes = .ok lights → lights ≠ [] → ∃ header rows, records bytes = header :: rows ∧
      ∀ column ∈ lightLayout.columns, ∃ field ∈ header.fields, fieldText field = .ok column := by
  intro h
  obtain ⟨header, rows, hrecords, hnames⟩ :=
    h latinTable _ lights_latinTable (List.cons_ne_nil _ _)
  rw [records_latinTable] at hrecords
  obtain ⟨rfl, -⟩ := List.cons.inj hrecords
  obtain ⟨field, hfield, htext⟩ := hnames "intensity" (by decide)
  have hnone : latinHeader.fields.all
      (fun field => (fieldText field).toOption != some "intensity") = true := by decide +kernel
  have hother := List.all_eq_true.mp hnone field hfield
  rw [htext] at hother
  exact nomatch hother

end Table

end Phototaxis
