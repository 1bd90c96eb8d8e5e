import Mathlib.Data.List.TakeWhile
import Mathlib.Tactic.Common
import Phototaxis.Text.Blank

/-!
# Words and blanks

A word is a text that has characters and no blanks among them. Trimming leaves words as
they are, and words with a blank between each two of them are found again
(`words_joined`). What trimming does at the ends of a text it does at the ends of its bytes as
well, since of each character all bytes are dropped or none (`trimEnds_flatMap`).
-/

namespace Phototaxis.Text

variable {current chars rest : List Char} {text : String}

/-- Whether a text is a word: not empty, and without blanks. -/
structure IsWord (text : String) : Prop where
  ne_nil : text.toList ≠ []
  not_blank : ∀ c ∈ text.toList, isBlank c = false

instance (text : String) : Decidable (IsWord text) :=
  decidable_of_iff (text.toList ≠ [] ∧ text.toList.all (!isBlank ·) = true) <| by
    simp only [List.all_eq_true, Bool.not_eq_true']
    exact ⟨fun h => ⟨h.1, h.2⟩, fun h => ⟨h.ne_nil, h.not_blank⟩⟩

/-! ## Trimming -/

section Ends

variable {α β : Type} {drop : α → Bool} {front l back : List α}

/-- A list without what is to be dropped at either end. -/
def trimEnds (drop : α → Bool) (l : List α) : List α :=
  ((l.dropWhile drop).reverse.dropWhile drop).reverse

/-- Nothing is dropped at either end of a list of elements that are to be kept. -/
theorem trimEnds_self (h : ∀ a ∈ l, drop a = false) : trimEnds drop l = l := by
  have hkeep : ∀ {l : List α}, (∀ a ∈ l, drop a = false) → l.dropWhile drop = l := by
    intro l hl
    rw [List.dropWhile_eq_self_iff]
    intro hlength
    rw [hl _ (List.getElem_mem hlength)]
    exact Bool.false_ne_true
  rw [trimEnds, hkeep h, hkeep fun a ha => h a (List.mem_reverse.mp ha), List.reverse_reverse]

/-- **What is to be dropped may be added at either end.** -/
theorem trimEnds_append (hfront : ∀ a ∈ front, drop a = true) (hback : ∀ a ∈ back, drop a = true) :
    trimEnds drop (front ++ l ++ back) = trimEnds drop l := by
  have hrest : ∀ {l : List α}, (l ++ back).dropWhile drop
      = if (l.dropWhile drop).isEmpty then [] else l.dropWhile drop ++ back := by
    intro l
    rw [List.dropWhile_append]
    split
    · exact List.dropWhile_eq_nil_iff.mpr hback
    · rfl
  have hreverse : ∀ a ∈ back.reverse, drop a = true := fun a ha =>
    hback a (List.mem_reverse.mp ha)
  rw [trimEnds, trimEnds, List.append_assoc, List.dropWhile_append_of_pos hfront, hrest]
  split
  · next hempty => rw [List.isEmpty_iff.mp hempty]
  · rw [List.reverse_append, List.dropWhile_append_of_pos hreverse]

/-- Only at the ends something is dropped. -/
theorem exists_ends (drop : α → Bool) (l : List α) : ∃ front back,
    front ++ trimEnds drop l ++ back = l ∧ (∀ a ∈ front, drop a = true) ∧
      ∀ a ∈ back, drop a = true := by
  refine ⟨l.takeWhile drop, ((l.dropWhile drop).reverse.takeWhile drop).reverse, ?_, ?_, ?_⟩
  · rw [trimEnds, List.append_assoc, ← List.reverse_append, List.takeWhile_append_dropWhile,
      List.reverse_reverse, List.takeWhile_append_dropWhile]
  · exact fun a ha => List.mem_takeWhile_imp ha
  · exact fun a ha => List.mem_takeWhile_imp (List.mem_reverse.mp ha)

variable {drop : β → Bool} {parts : α → List β}

theorem dropWhile_flatMap (hne : ∀ a, parts a ≠ [])
    (h : ∀ a, (∀ b ∈ parts a, drop b = true) ∨ ∀ b ∈ parts a, drop b = false) (l : List α) :
    (l.flatMap parts).dropWhile drop
      = (l.dropWhile fun a => (parts a).all drop).flatMap parts := by
  induction l with
  | nil => rfl
  | cons a l ih =>
    rw [List.flatMap_cons]
    rcases h a with hall | hnone
    · rw [List.dropWhile_append_of_pos hall, ih, List.dropWhile_cons_of_pos]
      exact List.all_eq_true.mpr hall
    · obtain ⟨b, bs, hparts⟩ := List.exists_cons_of_ne_nil (hne a)
      have hb : drop b = false := hnone b (hparts ▸ List.mem_cons_self)
      have hstop : ¬ (parts a).all drop = true := by
        rw [hparts, List.all_cons, hb, Bool.false_and]
        exact Bool.false_ne_true
      rw [List.dropWhile_cons_of_neg (by exact hstop), List.flatMap_cons, hparts, List.cons_append,
        List.dropWhile_cons_of_neg (Bool.eq_false_iff.mp hb)]

/-- **Parts are dropped as wholes**, if of each of them all is to be dropped or nothing. -/
theorem trimEnds_flatMap (hne : ∀ a, parts a ≠ [])
    (h : ∀ a, (∀ b ∈ parts a, drop b = true) ∨ ∀ b ∈ parts a, drop b = false) (l : List α) :
    trimEnds drop (l.flatMap parts)
      = (trimEnds (fun a => (parts a).all drop) l).flatMap parts := by
  have hne' : ∀ a, (List.reverse ∘ parts) a ≠ [] := fun a => List.reverse_ne_nil_iff.mpr (hne a)
  have h' : ∀ a, (∀ b ∈ (List.reverse ∘ parts) a, drop b = true) ∨
      ∀ b ∈ (List.reverse ∘ parts) a, drop b = false := by
    simpa only [Function.comp_apply, List.mem_reverse] using h
  rw [trimEnds, dropWhile_flatMap hne h, List.reverse_flatMap, dropWhile_flatMap hne' h',
    List.reverse_flatMap]
  simp only [Function.comp_def, List.all_reverse, List.reverse_reverse]
  rfl

end Ends

theorem trimChars_eq (chars : List Char) : trimChars chars = trimEnds isBlank chars := rfl

/-- **A word has nothing to be trimmed.** -/
theorem IsWord.trim (h : IsWord text) : trim text = text := by
  rw [Text.trim, trimChars_eq, trimEnds_self h.not_blank, String.ofList_toList]

/-! ## Words -/

theorem wordsFrom_append (h : ∀ c ∈ chars, isBlank c = false) :
    wordsFrom current (chars ++ rest) = wordsFrom (current ++ chars) rest := by
  induction chars generalizing current with
  | nil => rw [List.append_nil, List.nil_append]
  | cons c chars ih =>
    have hc : ¬ isBlank c = true := by
      rw [h c List.mem_cons_self]
      exact Bool.false_ne_true
    rw [List.cons_append, wordsFrom, if_neg hc, ih (fun d hd => h d (List.mem_cons_of_mem _ hd)),
      List.append_assoc]
    rfl

theorem wordsFrom_blank (h : current ≠ []) :
    wordsFrom current (' ' :: rest) = current :: wordsFrom [] rest := by
  rw [wordsFrom, if_pos (show isBlank ' ' = true from rfl), if_neg]
  rwa [List.isEmpty_iff]

/-- **Words with a blank between them are found again.** -/
theorem words_joined {words : List String} (h : ∀ word ∈ words, IsWord word) :
    Text.words (String.intercalate " " words) = words := by
  suffices hchars : wordsFrom [] ([' '].intercalate (words.map String.toList))
      = words.map String.toList by
    rw [Text.words, String.toList_intercalate]
    show List.map String.ofList (wordsFrom [] ([' '].intercalate _)) = words
    rw [hchars, List.map_map]
    exact (List.map_congr_left fun word _ => String.ofList_toList).trans (List.map_id words)
  induction words with
  | nil => rfl
  | cons word words ih =>
    have hword := h word List.mem_cons_self
    cases words with
    | nil =>
      show wordsFrom [] ([' '].intercalate [word.toList]) = [word.toList]
      rw [List.intercalate_singleton, ← List.append_nil word.toList,
        wordsFrom_append hword.not_blank, List.nil_append, wordsFrom, if_neg, List.append_nil]
      rw [List.isEmpty_iff]
      exact hword.ne_nil
    | cons next words =>
      rw [List.map_cons, List.map_cons, List.intercalate_cons_cons, List.append_assoc,
        wordsFrom_append hword.not_blank, List.nil_append, List.singleton_append,
        wordsFrom_blank hword.ne_nil]
      exact congrArg _ (ih fun word hmem => h word (List.mem_cons_of_mem _ hmem))

end Phototaxis.Text
