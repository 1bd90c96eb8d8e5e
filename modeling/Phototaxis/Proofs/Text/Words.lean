import Mathlib.Logic.Relation
import Mathlib.Tactic.Common
import Phototaxis.Proofs.Text.Blank

/-!
# How a text falls into words

A text is a row of words and gaps: each word is as long as it can be, and what is no word is
blank. `Splits` builds a text from its words in this way, and every text has exactly one such
split, the one that `Text.words` finds (`words_eq_iff`).

A gap counts as a gap only, whatever blanks it has. So the words do not change when gaps are
replaced by other gaps, or blanks are put at either end (`words_of_respaced`).
-/

namespace Phototaxis.Text

/-- Whether all characters are blank. -/
def AreBlanks (chars : List Char) : Prop := ∀ c ∈ chars, isBlank c = true

/-- How characters fall into words: blanks only, or perhaps blanks, a word as long as it can be,
and what the rest of the characters falls into. -/
inductive Splits : List Char → List (List Char) → Prop
  | blanks {gap : List Char} (hgap : AreBlanks gap) : Splits gap []
  | word {gap word rest : List Char} {words : List (List Char)} (hgap : AreBlanks gap)
      (hne : word ≠ []) (hword : ∀ c ∈ word, isBlank c = false)
      (hend : ∀ c ∈ rest.head?, isBlank c = true) (hrest : Splits rest words) :
      Splits (gap ++ (word ++ rest)) (word :: words)

/-- What may be done to the blanks among characters: one gap becomes another, or blanks are added at
the ends. -/
inductive Respaced : List Char → List Char → Prop
  | gap {before gap gap' rest : List Char} (hgap : AreBlanks gap) (hgap' : AreBlanks gap')
      (hne : gap ≠ []) (hne' : gap' ≠ []) :
      Respaced (before ++ (gap ++ rest)) (before ++ (gap' ++ rest))
  | ends {front chars back : List Char} (hfront : AreBlanks front) (hback : AreBlanks back) :
      Respaced chars (front ++ (chars ++ back))

variable {current chars chars' before gap rest : List Char} {words : List (List Char)} {c : Char}

/-! ## Gaps -/

theorem wordsFrom_blank_cons (hc : isBlank c = true) :
    wordsFrom current (c :: rest) = wordsFrom current [] ++ wordsFrom [] rest := by
  rw [wordsFrom, wordsFrom, if_pos hc]
  split <;> rfl

/-- **Nothing is carried over a gap.** -/
theorem wordsFrom_gap (hgap : AreBlanks gap) (hne : gap ≠ []) :
    wordsFrom current (before ++ (gap ++ rest))
      = wordsFrom current before ++ wordsFrom [] rest := by
  have hblanks : ∀ {gap}, AreBlanks gap → wordsFrom [] (gap ++ rest) = wordsFrom [] rest := by
    intro gap hgap
    induction gap with
    | nil => rfl
    | cons c gap ih =>
      obtain ⟨hc, hgap⟩ := List.forall_mem_cons.mp hgap
      exact (wordsFrom_blank_cons hc).trans (ih hgap)
  induction before generalizing current with
  | nil =>
    obtain ⟨c, gap, rfl⟩ := List.exists_cons_of_ne_nil hne
    obtain ⟨hc, hgap⟩ := List.forall_mem_cons.mp hgap
    rw [List.nil_append, List.cons_append, wordsFrom_blank_cons hc, hblanks hgap]
  | cons c before ih =>
    rw [List.cons_append, wordsFrom, wordsFrom, ih, ih]
    split_ifs <;> rfl

theorem wordsFrom_front (hgap : AreBlanks gap) :
    wordsFrom [] (gap ++ rest) = wordsFrom [] rest := by
  rcases eq_or_ne gap [] with rfl | hne
  · rfl
  · have h : wordsFrom [] ([] ++ (gap ++ rest)) = _ := wordsFrom_gap hgap hne
    exact h

theorem wordsFrom_back (hgap : AreBlanks gap) :
    wordsFrom current (chars ++ gap) = wordsFrom current chars := by
  rcases eq_or_ne gap [] with rfl | hne
  · rw [List.append_nil]
  · have h : wordsFrom current (chars ++ (gap ++ [])) = _ := wordsFrom_gap hgap hne
    rw [List.append_nil] at h
    exact h.trans (List.append_nil _)

/-! ## Splitting -/

/-- A word ends where a gap begins, or at the end. -/
theorem wordsFrom_end (hne : current ≠ []) (hend : ∀ c ∈ rest.head?, isBlank c = true) :
    wordsFrom current rest = current :: wordsFrom [] rest := by
  have hlast : wordsFrom current [] = [current] := by
    rw [wordsFrom, if_neg (by rwa [List.isEmpty_iff])]
  cases rest with
  | nil => exact hlast
  | cons c rest =>
    rw [wordsFrom_blank_cons (hend c rfl), hlast]
    rw [wordsFrom_blank_cons (hend c rfl)]
    rfl

theorem Splits.blank_cons (h : Splits chars words) (hc : isBlank c = true) :
    Splits (c :: chars) words := by
  cases h with
  | blanks hgap => exact .blanks (List.forall_mem_cons.mpr ⟨hc, hgap⟩)
  | word hgap hne hword hend hrest =>
    exact .word (List.forall_mem_cons.mpr ⟨hc, hgap⟩) hne hword hend hrest

/-- A split that begins with a word. -/
theorem Splits.cons_word {word : List Char} (hne : word ≠ [])
    (hword : ∀ c ∈ word, isBlank c = false) (hend : ∀ c ∈ rest.head?, isBlank c = true)
    (hrest : Splits rest words) : Splits (word ++ rest) (word :: words) := by
  have hgap : AreBlanks [] := nofun
  exact .word hgap hne hword hend hrest

/-- What has been read of a word belongs to its first word. -/
theorem splits_wordsFrom (h : ∀ c ∈ current, isBlank c = false) :
    Splits (current ++ chars) (wordsFrom current chars) := by
  induction chars generalizing current with
  | nil =>
    rw [wordsFrom]
    split
    · next hempty =>
      rw [List.isEmpty_iff.mp hempty]
      exact .blanks (List.forall_mem_nil _)
    · next hne =>
      rw [List.isEmpty_iff] at hne
      exact .cons_word hne h (fun d hd => absurd hd (Option.not_mem_none d))
        (.blanks (List.forall_mem_nil _))
  | cons c chars ih =>
    rw [wordsFrom]
    split_ifs with hc hempty
    · rw [List.isEmpty_iff.mp hempty]
      exact Splits.blank_cons (ih (List.forall_mem_nil _)) hc
    · have hrest : Splits (c :: chars) (wordsFrom [] chars) :=
        Splits.blank_cons (ih (List.forall_mem_nil _)) hc
      rw [List.isEmpty_iff] at hempty
      refine .cons_word hempty h (fun d hd => ?_) hrest
      rwa [← Option.some.inj hd]
    · rw [Bool.not_eq_true] at hc
      have h' := ih (List.forall_mem_append.mpr ⟨h, List.forall_mem_singleton.mpr hc⟩)
      rwa [List.append_assoc] at h'

/-- **A text falls into words in one way.** -/
theorem splits_iff : Splits chars words ↔ wordsFrom [] chars = words := by
  constructor
  · intro h
    induction h with
    | @blanks gap hgap =>
      show wordsFrom [] ([] ++ gap) = []
      exact wordsFrom_back hgap
    | word hgap hne hword hend hrest ih =>
      rw [wordsFrom_front hgap, wordsFrom_append hword, List.nil_append, wordsFrom_end hne hend, ih]
  · rintro rfl
    exact splits_wordsFrom (List.forall_mem_nil _)

theorem words_eq_iff {text : String} {words : List String} :
    Text.words text = words ↔ Splits text.toList (words.map String.toList) := by
  rw [splits_iff, Text.words]
  constructor
  · rintro rfl
    rw [List.map_map]
    exact ((List.map_congr_left fun _ _ => String.toList_ofList).trans (List.map_id _)).symm
  · intro h
    rw [h, List.map_map]
    exact (List.map_congr_left fun _ _ => String.ofList_toList).trans (List.map_id _)

theorem Respaced.wordsFrom_eq (h : Respaced chars chars') :
    wordsFrom [] chars = wordsFrom [] chars' := by
  cases h with
  | gap hgap hgap' hne hne' => rw [wordsFrom_gap hgap hne, wordsFrom_gap hgap' hne']
  | ends hfront hback => rw [wordsFrom_front hfront, wordsFrom_back hback]

/-- **Blanks only tell words apart.** -/
theorem words_of_respaced {text text' : String}
    (h : Relation.ReflTransGen Respaced text.toList text'.toList) :
    Text.words text = Text.words text' := by
  have hchars : ∀ {chars chars'}, Relation.ReflTransGen Respaced chars chars' →
      wordsFrom [] chars = wordsFrom [] chars' := by
    intro chars chars' h
    induction h with
    | refl => rfl
    | tail _ hstep ih => exact ih.trans hstep.wordsFrom_eq
  exact congrArg (List.map String.ofList) (hchars h)

end Phototaxis.Text
