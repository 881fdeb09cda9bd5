import IntScript.CommandLine.Report
import IntScript.Proofs.Tokens

/-!
# Script files and lines of reports

A report is made of lines, each followed by a line feed. Lines that contain no line feed themselves
can be read back from it.
-/

namespace IntScript

/-! ## Texts without line feeds -/

/-- The text stays on one line. -/
def SingleLine (text : String) : Prop := '\n' ∉ text.toList

namespace SingleLine

@[simp]
theorem append_iff {s t : String} : SingleLine (s ++ t) ↔ SingleLine s ∧ SingleLine t := by
  simp [SingleLine, not_or]

theorem intercalate {separator : String} (h : SingleLine separator) {texts : List String}
    (htexts : ∀ text ∈ texts, SingleLine text) : SingleLine (separator.intercalate texts) := by
  induction texts with
  | nil => simp [SingleLine]
  | cons text rest ih =>
    cases rest with
    | nil => simpa using htexts
    | cons next rest =>
      rw [String.intercalate_cons_cons, append_iff, append_iff]
      exact ⟨⟨htexts text (by simp), h⟩, ih fun text ht => htexts text (by simp [ht])⟩

theorem pushn {s : String} (h : SingleLine s) {c : Char} (hc : c ≠ '\n') (n : Nat) :
    SingleLine (s.pushn c n) := by
  rw [String.pushn_eq_repeat_push]
  induction n with
  | zero => exact h
  | succ n ih => simpa [SingleLine, Nat.repeat, hc.symm] using ih

theorem toDigits (n : Nat) : '\n' ∉ Nat.toDigits 10 n := fun h =>
  absurd (Nat.isDigit_of_mem_toDigits (by decide) (by decide) h) (by decide)

@[simp]
theorem toString_nat (n : Nat) : SingleLine (toString n) := by
  simpa [SingleLine, Nat.toString_eq_repr] using toDigits n

@[simp]
theorem decimal (n : Int64) : SingleLine (Text.decimal n) := by
  rw [SingleLine, Text.toList_decimal]
  exact Text.notMem_digits (by decide) (by decide) n.toInt

theorem decimals {separator : String} (h : SingleLine separator) (ns : List Int64) :
    SingleLine (Text.decimals separator ns) :=
  Text.notMem_decimals (by decide) (by decide) h ns

end SingleLine

namespace CommandLine

/-! ## Printed lines -/

theorem toList_textOfLines_cons (line : String) (lines : List String) :
    (textOfLines (line :: lines)).toList = line.toList ++ '\n' :: (textOfLines lines).toList := by
  simp [textOfLines]

/-- Lines that are printed one below the other are read back as they were. -/
theorem lines_textOfLines {lines : List String} (h : ∀ line ∈ lines, SingleLine line) :
    Text.lines (textOfLines lines).toList = lines.map String.toList := by
  have hpieces : (textOfLines lines).toList.splitOn '\n' = lines.map String.toList ++ [[]] := by
    induction lines with
    | nil => rfl
    | cons line lines ih =>
      rw [toList_textOfLines_cons,
        List.splitOn_append_cons_self_of_not_mem (h line List.mem_cons_self),
        ih fun other hother => h other (List.mem_cons_of_mem _ hother)]
      rfl
  simp [Text.lines, hpieces]

theorem textOfLines_concat (lines : List String) (line : String) :
    textOfLines (lines ++ [line]) = textOfLines lines ++ line ++ "\n" := by
  simp [textOfLines, String.append_assoc]

/-! ## Script files -/

/-- The path leads to a file that holds a text. -/
def Directory.HasText (directory : Directory) (path text : String) : Prop :=
  ∃ bytes, directory.read path = .ok bytes ∧ String.fromUTF8? bytes = some text

/-- Every text can be held by a file. -/
theorem Directory.hasText_of_read {directory : Directory} {path text : String}
    (h : directory.read path = .ok text.toUTF8) : directory.HasText path text :=
  ⟨_, h, dif_pos text.isValidUTF8⟩

/-- Whether a file that holds a text holds a script is decided by the parser. -/
theorem loadScript_of_hasText {directory : Directory} {path text : String}
    (h : directory.HasText path text) :
    loadScript path (directory.read path) = match Script.parse text with
      | .error error => .error (.failure ("error: " ++ error.message))
      | .ok script => .ok script := by
  obtain ⟨bytes, hread, htext⟩ := h
  have hdecode : decodeText (directory.read path) = .ok text := by
    simp [decodeText, hread, htext]
  cases hparse : Script.parse text <;> simp only [loadScript, hdecode, hparse]

end CommandLine

end IntScript
