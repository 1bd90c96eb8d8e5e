import Mathlib.Tactic.Common
import Phototaxis.Proofs.Fault
import Phototaxis.Table.Columns

/-!
# Rows by the names of the header

A header that is text names the columns. A row is then read exactly if each wanted column has its
name in the header once, and gives the fields that stand under these names, wherever they stand
(`Layout.ByName`). A header that is no text, in a single field be it, names nothing: a row is then
read if it has enough fields, and gives the first of them (`Layout.ByPosition`). There is no third
way (`Layout.row_eq_ok_iff`).
-/

namespace Phototaxis.Table

deriving instance DecidableEq for Layout, Fault

/-- The texts of the fields of a record, if all of them are text. -/
def RawRecord.texts? (record : RawRecord) : Option (List String) :=
  (fieldTexts 0 record.fields).toOption

variable {header record : RawRecord} {names fields cells seen wanted : List String}
  {column cell : String} {layout : Layout} {start : Position}

theorem RawRecord.texts?_eq_some_iff :
    record.texts? = some fields ↔ fieldTexts 0 record.fields = .ok fields := by
  unfold texts?
  cases fieldTexts 0 record.fields with
  | error fault => exact iff_of_false nofun nofun
  | ok texts =>
    exact ⟨fun h => congrArg _ (Option.some.inj h), fun h => congrArg _ (Except.ok.inj h)⟩

/-- **All fields of a record are text if each of them is.** -/
theorem fieldTexts_eq_ok_iff {index : ℕ} {raw : List (List UInt8)} :
    fieldTexts index raw = .ok fields ↔
      List.Forall₂ (fun field text => fieldText field = .ok text) raw fields := by
  induction raw generalizing index fields with
  | nil =>
    rw [List.forall₂_nil_left_iff]
    exact ⟨fun h => (Except.ok.inj h).symm, fun h => congrArg _ h.symm⟩
  | cons field raw ih =>
    rw [fieldTexts, List.forall₂_cons_left_iff]
    cases fieldText field with
    | error valid =>
      refine iff_of_false nofun ?_
      rintro ⟨_, _, h, -⟩
      cases h
    | ok text =>
      dsimp only
      rw [map_eq_ok_iff]
      constructor
      · rintro ⟨rest, hrest, rfl⟩
        exact ⟨text, rest, rfl, ih.mp hrest, rfl⟩
      · rintro ⟨_, rest, ⟨⟩, hrest, rfl⟩
        exact ⟨rest, ih.mpr hrest, rfl⟩

theorem RawRecord.length_of_texts? (h : record.texts? = some fields) :
    record.fields.length = fields.length :=
  (fieldTexts_eq_ok_iff.mp (texts?_eq_some_iff.mp h)).length_eq

/-! ## Names that stand once -/

/-- **No wanted name is repeated** if none has been seen before, and each stands once at most. -/
theorem firstRepeated?_eq_none_iff : firstRepeated? wanted seen names = none ↔
    ∀ column ∈ wanted, names.count column ≤ if column ∈ seen then 0 else 1 := by
  induction names generalizing seen with
  | nil => exact iff_of_true rfl fun _ _ => Nat.zero_le _
  | cons name names ih =>
    rw [firstRepeated?]
    by_cases hrepeated : name ∈ wanted ∧ name ∈ seen
    · rw [if_pos (by simpa using hrepeated)]
      refine iff_of_false nofun fun h => ?_
      have hcount := h name hrepeated.1
      rw [if_pos hrepeated.2, List.count_cons_self] at hcount
      exact absurd hcount (Nat.not_succ_le_zero _)
    · rw [if_neg (by simpa using hrepeated), ih]
      refine forall₂_congr fun column hcolumn => ?_
      by_cases hname : name = column
      · subst hname
        have hseen : name ∉ seen := fun h => hrepeated ⟨hcolumn, h⟩
        rw [if_pos List.mem_cons_self, if_neg hseen, List.count_cons_self]
        exact Nat.succ_le_succ_iff.symm
      · rw [List.count_cons_of_ne hname]
        simp only [List.mem_cons, or_iff_right (Ne.symm hname)]

/-- Under a name that stands once at most, the first entry is the only one. -/
theorem find?_eq_some_iff_mem {entries : List (String × String)}
    (h : (entries.map Prod.fst).count column ≤ 1) :
    entries.find? (·.1 == column) = some (column, cell) ↔ (column, cell) ∈ entries := by
  induction entries with
  | nil => exact iff_of_false nofun List.not_mem_nil
  | cons entry entries ih =>
    obtain ⟨name, text⟩ := entry
    rw [List.map_cons] at h
    by_cases hname : name = column
    · subst hname
      rw [List.count_cons_self, Nat.succ_le_succ_iff, Nat.le_zero, List.count_eq_zero] at h
      rw [List.find?_cons_of_pos (by exact beq_self_eq_true name), List.mem_cons, Option.some_inj,
        eq_comm, or_iff_left]
      exact fun hmem => h (List.mem_map.mpr ⟨_, hmem, rfl⟩)
    · rw [List.count_cons_of_ne hname] at h
      rw [List.find?_cons_of_neg (by simpa using hname), ih h, List.mem_cons, or_iff_right]
      rintro ⟨⟩
      exact hname rfl

/-! ## Rows -/

/-- What is paired with something has something it is paired with. -/
theorem exists_of_forall₂ {α β : Type} {R : α → β → Prop} {l : List α} {l' : List β}
    (h : List.Forall₂ R l l') : ∀ a ∈ l, ∃ b, R a b := by
  induction h with
  | nil => exact List.forall_mem_nil _
  | cons hab _ ih => exact List.forall_mem_cons.mpr ⟨⟨_, hab⟩, ih⟩

namespace Layout

/-- Whether cells stand under the names of the wanted columns, each of which is in the header
once. -/
structure ByName (layout : Layout) (names fields cells : List String) : Prop where
  count_eq_one : ∀ column ∈ layout.columns, names.count column = 1
  cells : List.Forall₂ (fun column cell => (column, cell) ∈ names.zip fields) layout.columns cells

/-- Whether cells are the first fields, as many as there are wanted columns. -/
structure ByPosition (layout : Layout) (fields cells : List String) : Prop where
  enough : layout.columns.length ≤ fields.length
  cells_eq : cells = fields.take layout.columns.length

/-- A wanted column gives the field under its name, if the name stands there once at most. -/
theorem cell_eq_ok_iff (h : ((names.zip fields).map Prod.fst).count column ≤ 1) :
    Layout.cell start names fields column = .ok cell ↔ (column, cell) ∈ names.zip fields := by
  rw [← find?_eq_some_iff_mem h, Layout.cell]
  cases hfind : (names.zip fields).find? (·.1 == column) with
  | none => exact iff_of_false nofun nofun
  | some entry =>
    obtain ⟨name, text⟩ := entry
    have hname : name = column := beq_iff_eq.mp (List.find?_some hfind :)
    rw [hname]
    constructor
    · intro h
      rw [Except.ok.inj h]
    · rintro ⟨⟩
      rfl

theorem cells_some_eq_ok_iff (hlength : fields.length = names.length) :
    layout.cells (some names) start fields = .ok cells ↔ layout.ByName names fields cells := by
  have hnames : (names.zip fields).map Prod.fst = names :=
    List.map_fst_zip (Nat.le_of_eq hlength.symm)
  rw [Layout.cells]
  cases hrepeated : firstRepeated? layout.columns [] names with
  | some column =>
    refine iff_of_false nofun fun h => ?_
    have hnone : firstRepeated? layout.columns [] names = none :=
      firstRepeated?_eq_none_iff.mpr fun column hcolumn =>
        Nat.le_of_eq (h.count_eq_one column hcolumn)
    rw [hnone] at hrepeated
    exact nomatch hrepeated
  | none =>
    have hcount : ∀ column ∈ layout.columns, names.count column ≤ 1 :=
      firstRepeated?_eq_none_iff.mp hrepeated
    have hcells : layout.columns.mapM (cell start names fields) = .ok cells ↔
        List.Forall₂ (fun column cell => (column, cell) ∈ names.zip fields) layout.columns
          cells := by
      rw [mapM_eq_ok_iff, List.forall₂_iff_zip, List.forall₂_iff_zip]
      refine and_congr_right' (forall₃_congr fun column cell hmem => cell_eq_ok_iff ?_)
      rw [hnames]
      exact hcount column (List.of_mem_zip hmem).1
    refine hcells.trans ⟨fun h => ⟨fun column hcolumn => ?_, h⟩, ByName.cells⟩
    obtain ⟨cell, hmem⟩ := exists_of_forall₂ h column hcolumn
    exact Nat.le_antisymm (hcount column hcolumn)
      (List.count_pos_iff.mpr (List.of_mem_zip hmem).1)

theorem cells_none_eq_ok_iff :
    layout.cells none start fields = .ok cells ↔ layout.ByPosition fields cells := by
  rw [Layout.cells]
  split
  · next h => exact iff_of_false nofun fun hposition => Nat.not_le_of_lt h hposition.enough
  · next h =>
    constructor
    · intro hcells
      exact ⟨Nat.not_lt.mp h, (Except.ok.inj hcells).symm⟩
    · intro hposition
      rw [hposition.cells_eq]

theorem rows_of_records {bytes : List UInt8} {others : List RawRecord}
    (h : records bytes = header :: others) :
    layout.rows bytes = others.map (layout.row header) := by
  rw [rows, h]

/-- **A row is read by the names of the header, or by position if the header is no text.** -/
theorem row_eq_ok_iff : layout.row header record = .ok cells ↔
    ∃ fields, record.texts? = some fields ∧ record.fields.length = header.fields.length ∧
      match header.texts? with
      | some names => layout.ByName names fields cells
      | none => layout.ByPosition fields cells := by
  rw [Layout.row]
  split
  · next hlength =>
    refine iff_of_false nofun ?_
    rintro ⟨_, -, h, -⟩
    exact hlength h
  · next hlength =>
    rw [not_not] at hlength
    simp only [RawRecord.texts?_eq_some_iff, and_iff_right hlength]
    cases htexts : fieldTexts 0 record.fields with
    | error fault =>
      refine iff_of_false nofun ?_
      rintro ⟨_, h, -⟩
      cases h
    | ok fields =>
      have hfields : record.fields.length = fields.length :=
        RawRecord.length_of_texts? (RawRecord.texts?_eq_some_iff.mpr htexts)
      simp only [Except.ok.injEq, exists_eq_left']
      show layout.cells header.texts? record.start fields = .ok cells ↔ _
      cases hnames : header.texts? with
      | none => exact cells_none_eq_ok_iff
      | some names =>
        refine cells_some_eq_ok_iff ?_
        rw [← hfields, hlength, RawRecord.length_of_texts? hnames]

end Layout

end Phototaxis.Table
