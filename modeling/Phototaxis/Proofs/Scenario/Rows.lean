import Phototaxis.Proofs.Scenario.Records
import Phototaxis.Proofs.Table.Columns
import Phototaxis.Scenario.Tables

/-!
# Rows and records say the same

A row of a table and a record with the same cells are held to the same rules: they give
the same item, bit for bit, or they are refused for the same reason. Only the name under
which they are refused differs, a record by itself and a row by its line
(`Table.rows_as_records`).

Two things make it so. What is read from a row are the cells that were written, which
is shown for tables whose cells need neither quotes nor trimming. And the rules never
look at the name: it is `Labelled` on to a fault that was found without it.
-/

namespace Phototaxis

/-! ## Faults without a name -/

/-- What is wrong with a record or a row under a name. -/
def Record.named (label : String) : RecordFault ⊕ UnknownBehavior → ScenarioError
  | .inl fault => .record label fault
  | .inr error => .behavior error

/-- Whether a name has no part in an operation but to name the fault. -/
def Record.Labelled {α : Type} (read : String → Except ScenarioError α) : Prop :=
  ∃ result : Except (RecordFault ⊕ UnknownBehavior) α,
    ∀ label, read label = result.mapError (named label)

namespace Record.Labelled

variable {α β : Type} {read : String → Except ScenarioError α} {label label' : String}

theorem pure (a : α) : Labelled fun _ => .ok a := ⟨.ok a, fun _ => rfl⟩

theorem fault (fault : RecordFault) :
    Labelled fun label => (.error (.record label fault) : Except ScenarioError α) :=
  ⟨.error (.inl fault), fun _ => rfl⟩

theorem bind {next : α → String → Except ScenarioError β} (h : Labelled read)
    (hnext : ∀ a, Labelled (next a)) : Labelled fun label => read label >>= (next · label) := by
  obtain ⟨result, hresult⟩ := h
  choose results hresults using hnext
  refine ⟨result >>= results, fun label => ?_⟩
  show read label >>= (next · label) = _
  rw [hresult]
  cases result with
  | error e => rfl
  | ok a => exact hresults a label

/-- Under every name there is the same item. -/
theorem eq_ok_iff (h : Labelled read) {a : α} : read label = .ok a ↔ read label' = .ok a := by
  obtain ⟨result, hresult⟩ := h
  rw [hresult, hresult]
  cases result with
  | error e => exact iff_of_false nofun nofun
  | ok b => exact Iff.rfl

/-- Under every name there is the same fault. -/
theorem eq_error_iff (h : Labelled read) {e : ScenarioError} : read label = .error e ↔
    (∃ fault, read label' = .error (.record label' fault) ∧ e = .record label fault) ∨
      ∃ error, read label' = .error (.behavior error) ∧ e = .behavior error := by
  obtain ⟨result, hresult⟩ := h
  rw [hresult, hresult]
  constructor
  · intro he
    match result, he with
    | .error (.inl fault), he => exact .inl ⟨fault, rfl, (Except.error.inj he).symm⟩
    | .error (.inr error), he => exact .inr ⟨error, rfl, (Except.error.inj he).symm⟩
  · match result with
    | .ok a => rintro (⟨_, h, -⟩ | ⟨_, h, -⟩) <;> exact nomatch h
    | .error (.inl fault) =>
      rintro (⟨_, h, rfl⟩ | ⟨_, h, -⟩)
      · cases h
        rfl
      · exact nomatch h
    | .error (.inr error) =>
      rintro (⟨_, h, -⟩ | ⟨_, h, rfl⟩)
      · exact nomatch h
      · cases h
        rfl

/-- The name in a fault is the one under which it was found. -/
theorem label_eq (h : Labelled read) {fault : RecordFault}
    (hread : read label = .error (.record label' fault)) : label' = label := by
  obtain ⟨result, hresult⟩ := h
  rw [hresult] at hread
  cases result with
  | ok a => exact nomatch hread
  | error e =>
    cases e with
    | inl fault' =>
      cases hread
      rfl
    | inr error => exact nomatch hread

theorem number (name field : String) : Labelled fun label => Record.number label name field := by
  unfold Record.number
  cases Number.ofText? field with
  | none => exact fault _
  | some value =>
    dsimp only
    split
    · exact pure value
    · exact fault _

theorem speed (field : String) : Labelled fun label => Record.speed label field := by
  refine (number "speed" field).bind fun value => ?_
  by_cases h : value < 0.0
  · simp only [if_pos h]
    exact fault (.negativeSpeed value)
  · simp only [if_neg h]
    exact pure value

theorem behavior (field : String) : Labelled fun _ => Record.behavior field := by
  unfold Record.behavior
  cases Behavior.ofName field with
  | ok b => exact pure b
  | error e => exact ⟨.error (.inr e), fun _ => rfl⟩

end Record.Labelled

theorem Table.labelled_lightOfRow (fields : List String) :
    Record.Labelled fun label => Table.lightOfRow label fields := by
  unfold lightOfRow
  split
  · next x y intensity =>
    exact (Record.Labelled.number "x" x).bind fun _ =>
      (Record.Labelled.number "y" y).bind fun _ =>
        (Record.Labelled.number "intensity" intensity).bind fun _ => .pure _
  · exact .fault _

theorem Table.labelled_vehicleOfRow (fields : List String) :
    Record.Labelled fun label => Table.vehicleOfRow label fields := by
  unfold vehicleOfRow
  split
  · next x y heading speed behavior =>
    simp only [Vehicle.ofFields_eq]
    exact (Record.Labelled.number "x" x).bind fun _ =>
      (Record.Labelled.number "y" y).bind fun _ =>
        (Record.Labelled.number "heading" heading).bind fun _ =>
          (Record.Labelled.speed speed).bind fun _ =>
            (Record.Labelled.behavior behavior).bind fun _ => .pure _
  · exact .fault _

namespace Table

/-! ## Tables without quotes -/

/-- Whether a cell is written and read as it is: a word without commas and quotes. -/
structure IsCell (text : String) : Prop extends Text.IsWord text where
  comma : ',' ∉ text.toList
  quote : '"' ∉ text.toList

instance (text : String) : Decidable (IsCell text) :=
  decidable_of_iff (Text.IsWord text ∧ ',' ∉ text.toList ∧ '"' ∉ text.toList)
    ⟨fun h => ⟨h.1, h.2.1, h.2.2⟩, fun h => ⟨h.toIsWord, h.comma, h.quote⟩⟩

/-- So many cells. -/
structure Cells (count : Nat) where
  texts : List String
  length_eq : texts.length = count
  isCell : ∀ text ∈ texts, IsCell text

/-- The record of the same cells, with blanks between them. -/
def Cells.record {count : Nat} (row : Cells count) : String := String.intercalate " " row.texts

/-- Lines, with a line end between each two of them and perhaps behind the last one. -/
def linesText (lineEnd : LineEnd) (closed : Bool) (lines : List String) : String :=
  String.intercalate lineEnd.text lines ++ if closed then lineEnd.text else ""

/-- The table of a header and rows, with commas between the cells. -/
def Layout.table (layout : Layout) (lineEnd : LineEnd) (closed : Bool)
    (rows : List (Cells layout.columns.length)) : String :=
  linesText lineEnd closed
    ((layout.columns :: rows.map Cells.texts).map (String.intercalate ","))

theorem IsCell.bare {text : String} (h : IsCell text) : text.toList.any needsQuotes = false := by
  refine List.any_eq_false.mpr fun c hc hneeds => ?_
  have hblank : Text.isBlank c = false := h.not_blank c hc
  simp only [needsQuotes, Bool.or_eq_true, beq_iff_eq] at hneeds
  rcases hneeds with ((rfl | rfl) | rfl) | rfl
  · exact h.comma hc
  · exact h.quote hc
  · exact nomatch hblank
  · exact nomatch hblank

theorem isRecord_of_isCell {texts : List String} (hne : texts ≠ [])
    (h : ∀ text ∈ texts, IsCell text) : IsRecord texts := by
  refine ⟨hne, ?_⟩
  rintro rfl
  exact (h "" List.mem_cons_self).ne_nil rfl

theorem writeFields_of_isCell {texts : List String} (h : ∀ text ∈ texts, IsCell text) :
    writeFields texts = (String.intercalate "," texts).toList := by
  have hfield : ∀ text ∈ texts, writeField text = text.toList := by
    intro text htext
    rw [writeField, (h text htext).bare]
    rfl
  rw [String.toList_intercalate]
  induction texts with
  | nil => rfl
  | cons text texts ih =>
    cases texts with
    | nil => exact (hfield text List.mem_cons_self).trans (List.append_nil _).symm
    | cons next texts =>
      rw [writeFields, List.map_cons, List.map_cons, List.intercalate_cons_cons,
        hfield text List.mem_cons_self,
        ih (fun t ht => h t (List.mem_cons_of_mem _ ht))
          (fun t ht => hfield t (List.mem_cons_of_mem _ ht)), List.append_assoc]
      · rfl
      · exact List.cons_ne_nil _ _

theorem writesRecord_of_isCell {texts : List String} (hne : texts ≠ [])
    (h : ∀ text ∈ texts, IsCell text) :
    WritesRecord texts (String.intercalate "," texts).toList :=
  writeFields_of_isCell h ▸ writesRecord_writeFields hne

/-- A table is written line by line. -/
theorem writesTable_linesText (lineEnd : LineEnd) (closed : Bool) {lines : List (List String)}
    (h : ∀ texts ∈ lines, texts ≠ [] ∧ ∀ text ∈ texts, IsCell text) (hne : lines ≠ []) :
    WritesTable lines
      (linesText lineEnd closed (lines.map (String.intercalate ","))).toList := by
  rw [linesText, String.toList_append, String.toList_intercalate]
  induction lines with
  | nil => exact absurd rfl hne
  | cons texts lines ih =>
    obtain ⟨⟨htexts, hcells⟩, h⟩ := List.forall_mem_cons.mp h
    have hrecord := writesRecord_of_isCell htexts hcells
    cases lines with
    | nil =>
      rw [List.map_singleton, List.map_singleton, List.intercalate_singleton]
      cases closed with
      | false => exact (List.append_nil _).symm ▸ .last hrecord
      | true => exact List.append_nil lineEnd.text.toList ▸ .line hrecord lineEnd .nil
    | cons next lines =>
      rw [List.map_cons, List.map_cons, List.map_cons, List.map_cons, List.intercalate_cons_cons,
        List.append_assoc, List.append_assoc]
      exact .line hrecord lineEnd (ih h (List.cons_ne_nil _ _))

/-- **The rows that are read are the rows of the table.** -/
theorem Layout.rows_table {layout : Layout} (lineEnd : LineEnd) (closed : Bool)
    (rows : List (Cells layout.columns.length)) (hcells : ∀ text ∈ layout.columns, IsCell text)
    (hnodup : layout.columns.Nodup) (hcolumns : layout.columns ≠ [])
    (hmark : ∀ text ∈ layout.columns, Unmarked text.toList) :
    layout.rows (layout.table lineEnd closed rows).toUTF8.toList
      = rows.map fun row => .ok row.texts := by
  have hlines : ∀ texts ∈ layout.columns :: rows.map Cells.texts,
      texts ≠ [] ∧ ∀ text ∈ texts, IsCell text := by
    rw [List.forall_mem_cons, List.forall_mem_map]
    refine ⟨⟨hcolumns, hcells⟩, fun row _ => ⟨fun h => ?_, row.isCell⟩⟩
    rw [← List.length_eq_zero_iff, row.length_eq, List.length_eq_zero_iff] at h
    exact hcolumns h
  have hread := fields_records_table
    (writesTable_linesText lineEnd closed hlines (List.cons_ne_nil _ _))
    (fun texts htexts => isRecord_of_isCell (hlines texts htexts).1 (hlines texts htexts).2) hmark
  have hrows : ∀ texts ∈ rows.map Cells.texts, texts.length = layout.columns.length ∧
      ∀ text ∈ texts, Text.IsWord text := by
    rw [List.forall_mem_map]
    exact fun row _ => ⟨row.length_eq, fun text h => (row.isCell text h).toIsWord⟩
  rw [Text.toList_toUTF8]
  exact (rows_of_fields [] hread hnodup (fun text h => (hcells text h).toIsWord) hrows).trans
    List.map_map

example : lightLayout.table .feed true [⟨["0", "-2.5", "1e3"], rfl, by decide⟩]
    = "x,y,intensity\n0,-2.5,1e3\n" := by decide +kernel

/-! ## Items -/

variable {α ρ : Type} {item : String → List String → Except ScenarioError α}
  {cells : ρ → Except Fault (List String)} {rows : List ρ} {index : Nat}

/-- The item of a row under a name, or what is wrong with the row. -/
def itemOf (item : String → List String → Except ScenarioError α) (label : String) :
    Except Fault (List String) → Except ScenarioError α
  | .error fault => .error (.table fault)
  | .ok cells => item label cells

theorem itemsFrom_cons (row : Except Fault (List String))
    (rest : List (Except Fault (List String))) : itemsFrom item index (row :: rest) = do
      let first ← itemOf item (rowLabel index) row
      let others ← itemsFrom item (index + 1) rest
      return first :: others := by
  cases row <;> rfl

/-- Under every name a row gives the same item. -/
theorem itemOf_eq_ok_iff (hitem : ∀ row, Record.Labelled (item · row)) {label label' : String}
    {row : Except Fault (List String)} {a : α} :
    itemOf item label row = .ok a ↔ itemOf item label' row = .ok a := by
  cases row with
  | error fault => exact Iff.rfl
  | ok cells => exact (hitem cells).eq_ok_iff

/-- All rows of a table become items if each of them does. -/
theorem itemsFrom_eq_ok_iff {items : List α} (hitem : ∀ row, Record.Labelled (item · row))
    (label : String) : itemsFrom item index (rows.map cells) = .ok items ↔
      List.Forall₂ (fun row a => itemOf item label (cells row) = .ok a) rows items := by
  induction rows generalizing index items with
  | nil =>
    rw [List.forall₂_nil_left_iff]
    exact ⟨fun h => (Except.ok.inj h).symm, fun h => congrArg _ h.symm⟩
  | cons row rows ih =>
    rw [List.map_cons, itemsFrom_cons, List.forall₂_cons_left_iff, bind_eq_ok_iff]
    refine exists_congr fun a => ?_
    rw [bind_eq_ok_iff, itemOf_eq_ok_iff hitem]
    constructor
    · rintro ⟨ha, others, hothers, h⟩
      exact ⟨others, ha, ih.mp hothers, (Except.ok.inj h).symm⟩
    · rintro ⟨others, ha, hothers, rfl⟩
      exact ⟨ha, others, ih.mpr hothers, rfl⟩

/-- The first row at fault refuses the table, under its own name. -/
theorem itemsFrom_eq_error_iff {e : ScenarioError} (hitem : ∀ row, Record.Labelled (item · row))
    (label : String) : itemsFrom item index (rows.map cells) = .error e ↔
      ∃ before row after, rows = before ++ row :: after ∧
        (∀ r ∈ before, ∃ a, itemOf item label (cells r) = .ok a) ∧
        itemOf item (rowLabel (index + before.length)) (cells row) = .error e := by
  induction rows generalizing index with
  | nil =>
    refine iff_of_false nofun ?_
    rintro ⟨before, row, after, h, -⟩
    exact List.append_ne_nil_of_right_ne_nil before (List.cons_ne_nil row after) h.symm
  | cons row rows ih =>
    rw [List.map_cons, itemsFrom_cons, bind_eq_error_iff]
    constructor
    · rintro (h | ⟨a, ha, h⟩)
      · exact ⟨[], row, rows, rfl, nofun, h⟩
      · rw [bind_eq_error_iff] at h
        rcases h with h | ⟨_, _, h⟩
        · obtain ⟨before, r, after, rfl, hbefore, hr⟩ := ih.mp h
          refine ⟨row :: before, r, after, rfl, ?_, ?_⟩
          · rw [List.forall_mem_cons]
            exact ⟨⟨a, (itemOf_eq_ok_iff hitem).mp ha⟩, hbefore⟩
          · rw [List.length_cons, Nat.add_comm before.length 1, ← Nat.add_assoc]
            exact hr
        · exact nomatch h
    · rintro ⟨before, r, after, h, hbefore, hr⟩
      cases before with
      | nil =>
        obtain ⟨rfl, rfl⟩ := List.cons.inj h
        exact .inl hr
      | cons first before =>
        obtain ⟨rfl, rfl⟩ := List.cons.inj h
        obtain ⟨⟨a, ha⟩, hbefore⟩ := List.forall_mem_cons.mp hbefore
        refine .inr ⟨a, (itemOf_eq_ok_iff hitem).mpr ha, bind_eq_error_iff.mpr (.inl ?_)⟩
        refine ih.mpr ⟨before, r, after, rfl, hbefore, ?_⟩
        rw [Nat.add_assoc, Nat.add_comm 1]
        exact hr

/-- Whether a table's items are what its rows say as records. It has the items of the records, in
their order, if every record is accepted; else it is refused for the first record that is not, with
what is wrong with that record, under the name of the line. -/
structure Agrees {count : Nat} (ofRecord : String → Except ScenarioError α)
    (rows : List (Cells count)) (result : Except ScenarioError (List α)) : Prop where
  ok_iff : ∀ items, result = .ok items ↔
    List.Forall₂ (fun row a => ofRecord row.record = .ok a) rows items
  error_iff : ∀ e, result = .error e ↔ ∃ before row after, rows = before ++ row :: after ∧
    (∀ r ∈ before, ∃ a, ofRecord r.record = .ok a) ∧
    ((∃ fault, ofRecord row.record = .error (.record row.record fault) ∧
        e = .record (rowLabel before.length) fault) ∨
      ∃ error, ofRecord row.record = .error (.behavior error) ∧ e = .behavior error)

/-- A table agrees with its records if a record is read by the same rules as a row. -/
theorem agrees_of_labelled {count : Nat} {ofRecord : String → Except ScenarioError α}
    (hitem : ∀ row, Record.Labelled (item · row))
    (hrecord : ∀ row : Cells count, ofRecord row.record = item row.record row.texts)
    (rows : List (Cells count)) :
    Agrees ofRecord rows (itemsFrom item 0 (rows.map fun row => .ok row.texts)) := by
  have hok : ∀ (row : Cells count) a,
      itemOf item "" (.ok row.texts) = .ok a ↔ ofRecord row.record = .ok a := by
    intro row a
    rw [hrecord]
    exact (hitem row.texts).eq_ok_iff
  constructor
  · intro items
    rw [itemsFrom_eq_ok_iff hitem ""]
    simp only [hok]
  · intro e
    rw [itemsFrom_eq_error_iff hitem ""]
    refine exists_congr fun before => exists_congr fun row => exists_congr fun after => ?_
    rw [Nat.zero_add, hrecord row]
    simp only [hok]
    exact and_congr_right' (and_congr_right' (hitem row.texts).eq_error_iff)

theorem words_record {count : Nat} (row : Cells count) : Text.words row.record = row.texts :=
  Text.words_joined fun text h => (row.isCell text h).toIsWord

/-- **Rows and records say the same.** -/
theorem rows_as_records (lineEnd : LineEnd) (closed : Bool) :
    (∀ rows, Agrees Light.ofRecord rows
      (lights (lightLayout.table lineEnd closed rows).toUTF8.toList)) ∧
    ∀ rows, Agrees Vehicle.ofRecord rows
      (vehicles (vehicleLayout.table lineEnd closed rows).toUTF8.toList) := by
  constructor
  · intro rows
    rw [lights, Layout.rows_table lineEnd closed rows (by decide) (by decide)
      (List.cons_ne_nil _ _) (by decide)]
    refine agrees_of_labelled labelled_lightOfRow (fun row => ?_) rows
    rw [Light.ofRecord, words_record]
    rfl
  · intro rows
    rw [vehicles, Layout.rows_table lineEnd closed rows (by decide) (by decide)
      (List.cons_ne_nil _ _) (by decide)]
    refine agrees_of_labelled labelled_vehicleOfRow (fun row => ?_) rows
    rw [Vehicle.ofRecord, words_record]
    rfl

end Table

end Phototaxis
