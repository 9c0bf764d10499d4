import Formula.CommandLine.Input
import Mathlib.Data.List.Basic

/-!
# Lines of a text

Input is cut into lines before it is decoded. For input that is a text in UTF-8 it makes no
difference: the byte that ends lines is the encoding of the character that does, and no other
character has it in its encoding. Lines that are each written with an end after them are read back
as they were.
-/

namespace Formula.CommandLine

/-- The bytes of a text. -/
def utf8 (text : String) : List UInt8 := text.toUTF8.data.toList

/-- What stands between the ends of lines in a text. Nothing after the last end is no line. -/
def textLines (text : List Char) : List (List Char) :=
  let pieces := text.splitOn '\n'
  if pieces.getLast? = some [] then pieces.dropLast else pieces

/-! ## Rows with ends -/

section ended

variable {α : Type} [DecidableEq α] {separator : α}

/-- What stands between the separators of a row. Nothing after the last one is no piece. -/
def ended (separator : α) (row : List α) : List (List α) :=
  let pieces := row.splitOn separator
  if pieces.getLast? = some [] then pieces.dropLast else pieces

theorem ended_cons (element : α) (rest : List α) :
    ended separator (element :: rest) =
      if element = separator then [] :: ended separator rest
      else
        match ended separator rest with
        | [] => [[element]]
        | piece :: pieces => (element :: piece) :: pieces := by
  unfold ended
  rw [List.splitOn_cons_eq_if_modifyHead]
  obtain ⟨piece, pieces, hpieces⟩ := List.exists_cons_of_ne_nil (rest.splitOn_ne_nil separator)
  rw [hpieces]
  by_cases helement : element = separator
  · simp [helement, apply_ite (List.cons [])]
  · cases pieces with
    | nil => by_cases hpiece : piece = [] <;> simp [helement, hpiece]
    | cons next later =>
        by_cases hlast : (next :: later).getLast? = some [] <;> simp [helement, hlast]

theorem ended_append_separator {piece : List α} (hpiece : separator ∉ piece) (rest : List α) :
    ended separator (piece ++ separator :: rest) = piece :: ended separator rest := by
  induction piece with
  | nil => simp [ended_cons]
  | cons element piece ih =>
      have helement : element ≠ separator := (List.ne_of_not_mem_cons hpiece).symm
      rw [List.cons_append, ended_cons, if_neg helement, ih (List.not_mem_of_not_mem_cons hpiece)]

/-- Pieces that were written with a separator after each of them. -/
theorem ended_flatMap {pieces : List (List α)} (hpieces : ∀ piece ∈ pieces, separator ∉ piece) :
    ended separator (pieces.flatMap fun piece => piece ++ [separator]) = pieces := by
  induction pieces with
  | nil => simp [ended]
  | cons piece rest ih =>
      obtain ⟨hpiece, hrest⟩ := List.forall_mem_cons.mp hpieces
      rw [List.flatMap_cons, List.append_assoc, List.singleton_append,
        ended_append_separator hpiece, ih hrest]

theorem notMem_of_mem_splitOn (row : List α) :
    ∀ piece ∈ row.splitOn separator, separator ∉ piece := by
  induction row with
  | nil => simp
  | cons element rest ih =>
      obtain ⟨first, others, hsplit⟩ :=
        List.exists_cons_of_ne_nil (rest.splitOn_ne_nil separator)
      rw [List.splitOn_cons_eq_if_modifyHead]
      split
      next => exact List.forall_mem_cons.mpr ⟨List.not_mem_nil, ih⟩
      next helement =>
        have hne : element ≠ separator := by simpa using helement
        rw [hsplit, List.forall_mem_cons] at ih
        rw [hsplit, List.modifyHead_cons, List.forall_mem_cons]
        exact ⟨List.not_mem_cons_of_ne_of_not_mem hne.symm ih.1, ih.2⟩

/-- A piece that is not empty is not what stands after the last separator without one. -/
theorem exists_ended_of_splitOn {row piece : List α} {earlier later : List (List α)}
    (hsplit : row.splitOn separator = earlier ++ piece :: later) (hpiece : piece ≠ []) :
    ∃ others, ended separator row = earlier ++ piece :: others := by
  unfold ended
  rw [hsplit]
  dsimp only
  split
  next hlast =>
    have hlater : later ≠ [] := by
      rintro rfl
      simp [hpiece] at hlast
    refine ⟨later.dropLast, ?_⟩
    rw [List.dropLast_append_of_ne_nil (List.cons_ne_nil _ _), List.dropLast_cons_of_ne_nil hlater]
  next => exact ⟨later, rfl⟩

end ended

/-! ## Cutting a text -/

theorem textLines_eq_ended (text : List Char) : textLines text = ended '\n' text := rfl

theorem textLines_append_newline {line : List Char} (hline : '\n' ∉ line) (rest : List Char) :
    textLines (line ++ '\n' :: rest) = line :: textLines rest := ended_append_separator hline rest

/-- Lines that were written with an end after each of them. -/
theorem textLines_flatMap {lines : List (List Char)} (hlines : ∀ line ∈ lines, '\n' ∉ line) :
    textLines (lines.flatMap fun line => line ++ ['\n']) = lines := ended_flatMap hlines

theorem count_newline_flatMap {lines : List (List Char)} (hlines : ∀ line ∈ lines, '\n' ∉ line) :
    (lines.flatMap fun line => line ++ ['\n']).count '\n' = lines.length := by
  induction lines with
  | nil => rfl
  | cons line rest ih =>
      obtain ⟨hline, hrest⟩ := List.forall_mem_cons.mp hlines
      simp [ih hrest, List.count_eq_zero.mpr hline]

theorem textLines_concat (text : List Char) : textLines (text ++ ['\n']) = text.splitOn '\n' := by
  rw [textLines, List.splitOn_append_cons_self, List.splitOn_nil]
  simp

/-- The last line of a text whose lines are all ended. -/
theorem getLast?_textLines {before line : List Char}
    (hbefore : before = [] ∨ ∃ earlier, before = earlier ++ ['\n']) (hline : '\n' ∉ line) :
    (textLines (before ++ line ++ ['\n'])).getLast? = some line := by
  rw [textLines_concat]
  rcases hbefore with rfl | ⟨earlier, rfl⟩
  · rw [List.nil_append, List.splitOn_eq_singleton hline, List.getLast?_singleton]
  · rw [List.append_assoc, List.singleton_append, List.splitOn_append_cons_self,
      List.splitOn_eq_singleton hline, List.getLast?_concat]

/-! ## Cutting its encoding -/

theorem utf8_ofList (characters : List Char) :
    utf8 (.ofList characters) = characters.flatMap String.utf8EncodeChar := by
  rw [utf8, String.toUTF8_eq_toByteArray, String.toByteArray_ofList, List.utf8Encode,
    List.data_toByteArray, List.toList_toArray]

theorem lineFeed_mem_utf8EncodeChar_iff {c : Char} :
    lineFeed ∈ String.utf8EncodeChar c ↔ c = '\n' := by
  have hchar : c = '\n' ↔ c.val.toNat = 10 := Char.toNat_inj.symm
  have hbyte (n : Nat) : lineFeed = UInt8.ofNat n ↔ n % 256 = 10 :=
    UInt8.toNat_inj.symm.trans eq_comm
  rw [hchar, String.utf8EncodeChar]
  -- In an encoding of several bytes each of them is 128 or above.
  split_ifs <;> simp only [List.mem_cons, List.not_mem_nil, or_false, hbyte] <;> omega

theorem byteLines_append {bytes : List UInt8} (hne : bytes ≠ []) (hbytes : lineFeed ∉ bytes)
    (rest : List UInt8) :
    byteLines (bytes ++ rest) =
      match byteLines rest with
      | [] => [bytes]
      | line :: lines => (bytes ++ line) :: lines := by
  induction bytes with
  | nil => exact absurd rfl hne
  | cons byte bytes ih =>
      have hbyte : byte ≠ lineFeed := (List.ne_of_not_mem_cons hbytes).symm
      rw [List.cons_append, byteLines, if_neg hbyte]
      by_cases hnil : bytes = []
      · subst hnil
        rfl
      · rw [ih hnil (List.not_mem_of_not_mem_cons hbytes)]
        cases byteLines rest <;> rfl

theorem byteLines_flatMap (characters : List Char) :
    byteLines (characters.flatMap String.utf8EncodeChar) =
      (textLines characters).map fun line => line.flatMap String.utf8EncodeChar := by
  induction characters with
  | nil => rfl
  | cons c rest ih =>
      rw [textLines_eq_ended] at ih ⊢
      rw [List.flatMap_cons, ended_cons]
      split_ifs with hc
      · subst hc
        rw [List.map_cons, ← ih]
        rfl
      · have hfeed : lineFeed ∉ String.utf8EncodeChar c := fun hmem =>
          hc (lineFeed_mem_utf8EncodeChar_iff.mp hmem)
        rw [byteLines_append (String.utf8EncodeChar_ne_nil) hfeed, ih]
        cases ended '\n' rest <;> simp

theorem byteLines_eq_ended (bytes : List UInt8) : byteLines bytes = ended lineFeed bytes := by
  induction bytes with
  | nil => rfl
  | cons byte rest ih =>
      rw [byteLines, ended_cons, ih]
      split_ifs
      · rfl
      · cases ended lineFeed rest <;> rfl

/-! ## Lines that are texts -/

/-- Bytes that are the encoding of a text. -/
def IsText (bytes : List UInt8) : Prop := ∃ text, utf8 text = bytes

theorem decodeLine_utf8 (line : List Char) :
    decodeLine (line.flatMap String.utf8EncodeChar) =
      some (.ofList (Text.dropEndWhile (· = '\r') line)) := by
  have hutf8 : String.fromUTF8? (String.ofList line).toUTF8 = some (.ofList line) := by
    simp only [String.fromUTF8?, String.toUTF8_eq_toByteArray,
      dif_pos (String.ofList line).isValidUTF8]
    rfl
  rw [← utf8_ofList, decodeLine, utf8, Array.toArray_toList]
  change Option.map _ (String.fromUTF8? (String.ofList line).toUTF8) = _
  rw [hutf8, Option.map_some, String.toList_ofList]

theorem isText_iff {bytes : List UInt8} : IsText bytes ↔ (decodeLine bytes).isSome = true := by
  constructor
  · rintro ⟨text, rfl⟩
    rw [← String.ofList_toList (s := text), utf8_ofList, decodeLine_utf8]
    rfl
  · intro hdecodes
    rw [decodeLine, Option.isSome_map, String.fromUTF8?] at hdecodes
    split at hdecodes
    next hvalid =>
      refine ⟨String.fromUTF8 _ hvalid, ?_⟩
      simp [utf8, String.fromUTF8]
    next => cases hdecodes

instance (bytes : List UInt8) : Decidable (IsText bytes) := decidable_of_iff _ isText_iff.symm

theorem decodeLine_eq_none_iff {bytes : List UInt8} : decodeLine bytes = none ↔ ¬ IsText bytes := by
  simp [isText_iff]

theorem isText_nil : IsText [] := ⟨"", rfl⟩

/-- The lines of an encoded text are read as the lines of the text. -/
theorem inputLines_utf8 (text : String) :
    inputLines (utf8 text) =
      (textLines text.toList).map fun line =>
        some (.ofList (Text.dropEndWhile (· = '\r') line)) := by
  rw [inputLines, ← String.ofList_toList (s := text), utf8_ofList, byteLines_flatMap, List.map_map,
    String.toList_ofList]
  exact List.map_congr_left fun line _ => decodeLine_utf8 line

end Formula.CommandLine
