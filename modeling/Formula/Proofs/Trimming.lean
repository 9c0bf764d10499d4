import Formula.Text.Blank
import Mathlib.Data.List.DropRight

/-!
# Texts without the blanks around them

What is left of a text when the blanks around it are taken off is told by two conditions: there are
only blanks before and after it, and it neither begins nor ends with one. It is the only part of the
text that meets both. Blanks in between stay where they are.
-/

namespace Formula.Text

variable {p : Char → Bool} {text core before after : List Char}

/-! ## The end of a text -/

theorem dropEndWhile_append (hafter : ∀ c ∈ after, p c = true) :
    dropEndWhile p (text ++ after) = dropEndWhile p text := by
  rw [dropEndWhile, List.reverse_append, List.dropWhile_append_of_pos, dropEndWhile]
  intro c hc
  exact hafter c (List.mem_reverse.mp hc)

/-- Nothing is taken off a text whose last character is not of the kind. -/
theorem dropEndWhile_eq_self (hlast : ∀ c ∈ text.getLast?, p c = false) :
    dropEndWhile p text = text := by
  refine List.rdropWhile_eq_self_iff.mpr fun hne => ?_
  rw [hlast _ (List.getLast?_eq_getLast_of_ne_nil hne)]
  exact Bool.false_ne_true

/-- What is taken off the end of a text is of the kind. -/
theorem exists_dropEndWhile_append (p : Char → Bool) (text : List Char) :
    ∃ after, dropEndWhile p text ++ after = text ∧ ∀ c ∈ after, p c = true :=
  ⟨text.rtakeWhile p, List.rdropWhile_append_rtakeWhile, fun _ => List.mem_rtakeWhile_imp⟩

theorem getLast?_dropEndWhile (p : Char → Bool) (text : List Char) :
    ∀ c ∈ (dropEndWhile p text).getLast?, p c = false := by
  intro c hc
  obtain ⟨hne, rfl⟩ := List.mem_getLast?_eq_getLast hc
  exact Bool.eq_false_iff.mpr (List.rdropWhile_last_not p text hne)

/-! ## Both ends -/

/-- A text comes down to a part of it when the blanks around that part are taken off. -/
structure TrimsTo (text core : List Char) : Prop where
  exists_around : ∃ before after, text = before ++ (core ++ after) ∧
    (∀ c ∈ before, isBlank c = true) ∧ ∀ c ∈ after, isBlank c = true
  isBlank_first : ∀ c ∈ core.head?, isBlank c = false
  isBlank_last : ∀ c ∈ core.getLast?, isBlank c = false

theorem TrimsTo.trim_eq (htrims : TrimsTo text core) : trim text = core := by
  obtain ⟨⟨before, after, rfl, hbefore, hafter⟩, hfirst, hlast⟩ := htrims
  rw [trim, List.dropWhile_append_of_pos hbefore]
  cases core with
  | nil =>
      rw [List.nil_append, List.dropWhile_eq_nil_iff.mpr hafter]
      rfl
  | cons c rest =>
      rw [List.cons_append, List.dropWhile_cons_of_neg (by simp [hfirst c rfl]), ← List.cons_append,
        dropEndWhile_append hafter, dropEndWhile_eq_self hlast]

theorem trimsTo_trim (text : List Char) : TrimsTo text (trim text) := by
  have hsplit := @List.takeWhile_append_dropWhile _ isBlank text
  have hhead := List.head?_dropWhile_not isBlank text
  obtain ⟨after, hdrop, hafter⟩ := exists_dropEndWhile_append isBlank (text.dropWhile isBlank)
  refine ⟨⟨text.takeWhile isBlank, after, ?_, ?_, hafter⟩, ?_, getLast?_dropEndWhile _ _⟩
  · rw [trim, hdrop, hsplit]
  · intro c hc
    exact List.mem_takeWhile_imp hc
  · intro c hc
    have hfirst : (trim text).head? = some c := hc
    -- What is left begins as the text does without the blanks before it.
    rw [← hdrop, List.head?_append, ← trim, hfirst, Option.some_or] at hhead
    exact hhead

theorem trim_eq_iff : trim text = core ↔ TrimsTo text core :=
  ⟨fun h => h ▸ trimsTo_trim text, TrimsTo.trim_eq⟩

end Formula.Text
