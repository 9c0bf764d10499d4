import Formula.CommandLine.Assignment
import Formula.Proofs.Description
import Formula.Proofs.Layout
import Formula.Proofs.Trimming

/-!
# Assignments as they are written

An argument gives a number to a name if it is the name, an equals sign and a text that denotes the
number. The name may hold everything but an equals sign, blanks and symbols included, so that the
first equals sign tells where it ends. Any other argument is faulty, and the message is about the
first of its faults. A number of any kind that is written behind a name is read as what it was.
-/

namespace Formula.CommandLine

variable {argument name value : String} {number : Float}

/-- Behind an equals sign, a number is denoted by a text that reads as this number when the blanks
around it are taken off. -/
def Denotes (value : String) (number : Float) : Prop :=
  ∃ core, Text.TrimsTo value.toList core ∧ Numeral.read? core = some number

theorem denotes_iff : Denotes value number ↔
    Numeral.read? (Text.trim value.toList) = some number := by
  simp only [Denotes, ← Text.trim_eq_iff, exists_eq_left']

/-- What stands before the first equals sign of an argument is the name, and what stands behind it
denotes the number. -/
def Assigns (argument name : String) (number : Float) : Prop :=
  ∃ value, argument = name ++ "=" ++ value ∧ '=' ∉ name.toList ∧ name ≠ "" ∧ Denotes value number

/-- An argument gives no number to a name, and a message says why. A value that is not a number is
quoted with the blanks around it. -/
inductive Faulty : String → String → Prop where
  | noEqualsSign {argument : String} (hsign : '=' ∉ argument.toList) :
      Faulty argument ("expected NAME=VALUE, got '" ++ argument ++ "'")
  | noName (value : String) :
      Faulty ("=" ++ value) ("missing variable name in '" ++ ("=" ++ value) ++ "'")
  | noNumber {name value : String} (hname : name ≠ "") (hsign : '=' ∉ name.toList)
      (hvalue : ∀ number, ¬ Denotes value number) :
      Faulty (name ++ "=" ++ value) ("invalid number '" ++ value ++ "' for " ++ name)

/-! ## The first equals sign -/

theorem toList_equation (name value : String) :
    (name ++ "=" ++ value).toList = name.toList ++ '=' :: value.toList := by
  simp

/-- An argument with an equals sign has a first one. -/
theorem exists_equation (hsign : '=' ∈ argument.toList) :
    ∃ name value, argument = name ++ "=" ++ value ∧ '=' ∉ name.toList := by
  obtain ⟨before, after, hsplit, hbefore⟩ := List.eq_append_cons_of_mem hsign
  refine ⟨.ofList before, .ofList after, ?_, ?_⟩
  · rw [← String.toList_inj, toList_equation, String.toList_ofList, String.toList_ofList, hsplit]
  · rwa [String.toList_ofList]

theorem decide_ne_of_notMem {characters : List Char} (hsign : '=' ∉ characters) :
    ∀ c ∈ characters, decide (c ≠ '=') = true := by
  intro c hc
  rw [decide_eq_true_eq]
  rintro rfl
  exact hsign hc

/-- What stands before and behind the first equals sign. -/
theorem span_equation (value : String) (hsign : '=' ∉ name.toList) :
    (name ++ "=" ++ value).toList.takeWhile (· ≠ '=') = name.toList ∧
      (name ++ "=" ++ value).toList.dropWhile (· ≠ '=') = '=' :: value.toList := by
  have hname := decide_ne_of_notMem hsign
  rw [toList_equation, List.takeWhile_append_of_pos hname, List.dropWhile_append_of_pos hname]
  simp

/-! ## Reading an argument -/

theorem readAssignment_of_notMem (hsign : '=' ∉ argument.toList) :
    readAssignment argument = .error (.noEqualsSign argument) := by
  have hdrop : argument.toList.dropWhile (· ≠ '=') = [] :=
    List.dropWhile_eq_nil_iff.mpr (decide_ne_of_notMem hsign)
  rw [readAssignment, hdrop]

theorem readAssignment_noName (value : String) :
    readAssignment ("=" ++ value) = .error (.noName ("=" ++ value)) := by
  obtain ⟨htake, hdrop⟩ := @span_equation "" value (by decide)
  rw [String.empty_append] at htake hdrop
  rw [readAssignment, htake, hdrop]
  rfl

theorem readAssignment_equation (value : String) (hname : name ≠ "") (hsign : '=' ∉ name.toList) :
    readAssignment (name ++ "=" ++ value) =
      (Numeral.read? (Text.trim value.toList)).elim (.error (.noNumber value name))
        fun number => .ok (name, number) := by
  obtain ⟨htake, hdrop⟩ := span_equation value hsign
  have hne : name.toList ≠ [] := by simpa using hname
  rw [readAssignment, htake, hdrop]
  simp only [if_neg hne, String.ofList_toList]
  cases Numeral.read? (Text.trim value.toList) <;> rfl

theorem readAssignment_of_denotes (hname : name ≠ "") (hsign : '=' ∉ name.toList)
    (hvalue : Denotes value number) :
    readAssignment (name ++ "=" ++ value) = .ok (name, number) := by
  rw [readAssignment_equation value hname hsign, denotes_iff.mp hvalue, Option.elim_some]

theorem readAssignment_of_not_denotes (hname : name ≠ "") (hsign : '=' ∉ name.toList)
    (hvalue : ∀ number, ¬ Denotes value number) :
    readAssignment (name ++ "=" ++ value) = .error (.noNumber value name) := by
  have hnone : Numeral.read? (Text.trim value.toList) = none :=
    Option.eq_none_iff_forall_ne_some.mpr fun number hread => hvalue number (denotes_iff.mpr hread)
  rw [readAssignment_equation value hname hsign, hnone, Option.elim_none]

/-- An argument is either read or faulty. -/
theorem readAssignment_cases (argument : String) :
    (∃ name number, readAssignment argument = .ok (name, number) ∧ Assigns argument name number) ∨
      ∃ fault, readAssignment argument = .error fault ∧ Faulty argument fault.message := by
  by_cases hsign : '=' ∈ argument.toList
  · obtain ⟨name, value, rfl, hfirst⟩ := exists_equation hsign
    by_cases hname : name = ""
    · rw [hname, String.empty_append]
      exact .inr ⟨_, readAssignment_noName value, .noName value⟩
    · by_cases hvalue : ∃ number, Denotes value number
      · obtain ⟨number, hnumber⟩ := hvalue
        exact .inl ⟨name, number, readAssignment_of_denotes hname hfirst hnumber,
          value, rfl, hfirst, hname, hnumber⟩
      · have hnone := not_exists.mp hvalue
        exact .inr ⟨_, readAssignment_of_not_denotes hname hfirst hnone,
          .noNumber hname hfirst hnone⟩
  · exact .inr ⟨_, readAssignment_of_notMem hsign, .noEqualsSign hsign⟩

theorem readAssignment_eq_ok_iff :
    readAssignment argument = .ok (name, number) ↔ Assigns argument name number := by
  constructor
  · intro hread
    rcases readAssignment_cases argument with ⟨_, _, hfound, hassigns⟩ | ⟨_, hfound, -⟩
    · cases hfound.symm.trans hread
      exact hassigns
    · cases hfound.symm.trans hread
  · rintro ⟨value, rfl, hsign, hname, hvalue⟩
    exact readAssignment_of_denotes hname hsign hvalue

theorem mapError_readAssignment_eq_error_iff {message : String} :
    (readAssignment argument).mapError AssignmentFault.message = .error message ↔
      Faulty argument message := by
  constructor
  · intro hread
    rcases readAssignment_cases argument with ⟨_, _, hfound, -⟩ | ⟨_, hfound, hfaulty⟩
    · rw [hfound] at hread
      cases hread
    · rw [hfound] at hread
      cases hread
      exact hfaulty
  · intro hfaulty
    cases hfaulty with
    | noEqualsSign hsign =>
        rw [readAssignment_of_notMem hsign]
        rfl
    | noName value =>
        rw [readAssignment_noName]
        rfl
    | noNumber hname hsign hvalue =>
        rw [readAssignment_of_not_denotes hname hsign hvalue]
        rfl

/-! ## Numbers behind an equals sign -/

theorem isBlank_of_mem_text {number : Float} {c : Char}
    (hc : c ∈ (Layout.plain.text number).toList) : Text.isBlank c = false := by
  rw [Layout.text, String.toList_ofList] at hc
  rcases Layout.mem_characters hc with hoperand | rfl
  · exact Alphabet.isBlank_of_isOperand hoperand
  · decide

/-- The text of a number denotes the number, also with blanks around it. -/
theorem denotes_text {before after : String} (number : Float)
    (hbefore : ∀ c ∈ before.toList, Text.isBlank c = true)
    (hafter : ∀ c ∈ after.toList, Text.isBlank c = true) :
    Denotes (before ++ Layout.plain.text number ++ after) number := by
  refine ⟨(Layout.plain.text number).toList, ⟨⟨_, _, ?_, hbefore, hafter⟩, ?_, ?_⟩,
    Layout.read?_text number⟩
  · simp
  · intro c hc
    exact isBlank_of_mem_text (List.mem_of_mem_head? hc)
  · intro c hc
    exact isBlank_of_mem_text (List.mem_of_mem_getLast? hc)

/-- What is read from an argument. It is a name and a number exactly if the name stands before the
first equals sign and what stands behind it denotes the number; if not, it is a message about the
first fault. A number of any kind that is written behind a name, with any blanks around it, is thus
read as it was. -/
theorem readAssignment_denotes :
    (∀ argument name number,
      readAssignment argument = .ok (name, number) ↔ Assigns argument name number) ∧
    (∀ argument message,
      (readAssignment argument).mapError AssignmentFault.message = .error message ↔
        Faulty argument message) ∧
    (∀ name number before after, name ≠ "" → '=' ∉ name.toList →
      (∀ c ∈ before.toList, Text.isBlank c = true) → (∀ c ∈ after.toList, Text.isBlank c = true) →
      readAssignment (name ++ "=" ++ (before ++ Layout.plain.text number ++ after)) =
        .ok (name, number)) := by
  refine ⟨?_, ?_, ?_⟩
  · intro argument name number
    exact readAssignment_eq_ok_iff
  · intro argument message
    exact mapError_readAssignment_eq_error_iff
  · intro name number before after hname hsign hbefore hafter
    exact readAssignment_of_denotes hname hsign (denotes_text number hbefore hafter)

/-- A name with a blank in it and negative zero between blanks, and a value that begins with another
equals sign. -/
theorem readAssignment_denotes_blanks :
    readAssignment "net price=\u3000-0\t" = .ok ("net price", -0) ∧
      (readAssignment "a= =2 ").mapError AssignmentFault.message =
        .error "invalid number ' =2 ' for a" := by
  obtain ⟨-, hfaulty, hwritten⟩ := readAssignment_denotes
  constructor
  · have hread := hwritten "net price" (-0) "\u3000" "\t" (by decide) (by decide)
      (List.all_eq_true.mp (by decide)) (List.all_eq_true.mp (by decide))
    have htext : Layout.plain.text (-0) = "-0" := by decide +kernel
    rw [htext] at hread
    exact hread
  · have hnone : Numeral.read? (Text.trim " =2 ".toList) = none := by decide +kernel
    apply (hfaulty "a= =2 " _).mpr
    refine @Faulty.noNumber "a" " =2 " (by decide) (by decide) fun number hvalue => ?_
    rw [denotes_iff, hnone] at hvalue
    cases hvalue

end Formula.CommandLine
