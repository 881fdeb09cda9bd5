import IntScript.Proofs.Grammar

/-!
# Renderings of a script

The rows of a script can be written down in many ways. Blanks stand between the numerals of a row
and may stand around them, a comment may follow, and the line ends with a line feed, with or without
a carriage return before it. A last line may do without. Whatever layout is chosen, the text is read
back as the script with these rows.
-/

namespace IntScript

namespace Text

/-- Blank characters that do not leave the line. -/
def IsGap (cs : List Char) : Prop := ∀ c ∈ cs, isBlank c = true ∧ c ≠ '\n'

/-- The decimal numerals of integers, with a gap between neighbours. -/
inductive RendersNumerals : List Int64 → List Char → Prop where
  | nil : RendersNumerals [] []
  | single (n : Int64) : RendersNumerals [n] (decimal n).toList
  | cons (n : Int64) {next : Int64} {ns : List Int64} {gap cs : List Char} :
      gap ≠ [] → IsGap gap → RendersNumerals (next :: ns) cs →
      RendersNumerals (n :: next :: ns) ((decimal n).toList ++ gap ++ cs)

theorem IsGap.append {cs ds : List Char} (hc : IsGap cs) (hd : IsGap ds) : IsGap (cs ++ ds) :=
  List.forall_mem_append.2 ⟨hc, hd⟩

/-- A gap begins with a blank. -/
theorem IsGap.isBlank_head {gap : List Char} (h : IsGap gap) :
    ∀ c, gap.head? = some c → isBlank c = true :=
  fun c hc => (h c (List.mem_of_mem_head? hc)).1

/-- A gap in front adds no word. -/
theorem Words.gap_append {gap cs : List Char} {ws : List (List Char)} (h : IsGap gap)
    (hws : Words cs ws) : Words (gap ++ cs) ws := by
  induction gap with
  | nil => exact hws
  | cons c gap ih =>
    obtain ⟨hc, hgap⟩ := List.forall_mem_cons.1 h
    exact .blank hc.1 (ih hgap)

/-- The words of rendered integers are their numerals. -/
theorem RendersNumerals.words {ns : List Int64} {cs gap : List Char} (h : RendersNumerals ns cs)
    (hgap : IsGap gap) : Words (cs ++ gap) (ns.map fun n => digits n.toInt) := by
  have hnone : Words gap [] := by simpa using Words.nil.gap_append hgap
  induction h with
  | nil => exact hnone
  | single n =>
    rw [toList_decimal]
    exact .word (isWord_digits n.toInt) hgap.isBlank_head hnone
  | @cons n next ns between cs hne hbetween _ ih =>
    rw [toList_decimal, List.append_assoc, List.append_assoc]
    refine .word (isWord_digits n.toInt) (fun c hc => ?_) (ih.gap_append hbetween)
    -- The numeral is followed by the gap, which has a first character.
    rw [List.head?_append_of_ne_nil _ hne] at hc
    exact hbetween.isBlank_head c hc

/-- A space between neighbours is one of the gaps there can be. -/
theorem rendersNumerals_decimals (ns : List Int64) :
    RendersNumerals ns (decimals " " ns).toList := by
  rw [toList_decimals]
  induction ns with
  | nil => exact .nil
  | cons n rest ih =>
    cases rest with
    | nil => simpa using RendersNumerals.single n
    | cons next rest =>
      have hgap : IsGap " ".toList := by simp [IsGap, isBlank, blankRanges]
      rw [List.map_cons, List.map_cons, List.intercalate_cons_cons, ← toList_decimal n]
      exact .cons n (by simp) hgap ih

/-- Besides the gaps, rendered integers consist of signs and digits. -/
theorem RendersNumerals.mem {ns : List Int64} {cs : List Char} (h : RendersNumerals ns cs)
    {c : Char} (hc : c ∈ cs) : (isBlank c = true ∧ c ≠ '\n') ∨ c = '-' ∨ c.isDigit = true := by
  induction h with
  | nil => cases hc
  | single n =>
    rw [toList_decimal] at hc
    exact .inr (sign_or_digit_of_mem_digits hc)
  | cons n _ hgap _ ih =>
    rw [toList_decimal, List.mem_append, List.mem_append] at hc
    obtain (hc | hc) | hc := hc
    · exact .inr (sign_or_digit_of_mem_digits hc)
    · exact .inl (hgap c hc)
    · exact ih hc

end Text

namespace Script

open Text (IsGap RendersNumerals)

/-- The part of a line that spells a row, with gaps around it. -/
def RendersCode (row : List Int64) (code : List Char) : Prop :=
  ∃ left numerals right, IsGap left ∧ RendersNumerals row numerals ∧ IsGap right ∧
    code = left ++ numerals ++ right

/-- A line that spells a row. A comment may follow the row. -/
inductive RendersLine (row : List Int64) : List Char → Prop where
  | plain {code : List Char} : RendersCode row code → RendersLine row code
  | commented {code comment : List Char} : RendersCode row code → '\n' ∉ comment →
      RendersLine row (code ++ ';' :: comment)

/-- A text that spells rows, one a line. Only a last line that is not empty needs no terminator. -/
inductive Renders : List (List Int64) → List Char → Prop where
  | nil : Renders [] []
  | last {row : List Int64} {line : List Char} : RendersLine row line → line ≠ [] →
      Renders [row] line
  | lineFeed {row : List Int64} {line rest : List Char} {rows : List (List Int64)} :
      RendersLine row line → Renders rows rest → Renders (row :: rows) (line ++ '\n' :: rest)
  | carriageReturn {row : List Int64} {line rest : List Char} {rows : List (List Int64)} :
      RendersLine row line → Renders rows rest →
      Renders (row :: rows) (line ++ '\r' :: '\n' :: rest)

variable {row : List Int64} {code line : List Char}

theorem RendersCode.words (h : RendersCode row code) :
    Text.Words code (row.map fun n => Text.digits n.toInt) := by
  obtain ⟨left, numerals, right, hleft, hnumerals, hright, rfl⟩ := h
  rw [List.append_assoc]
  exact (hnumerals.words hright).gap_append hleft

theorem RendersCode.notMem (h : RendersCode row code) : '\n' ∉ code ∧ ';' ∉ code := by
  obtain ⟨left, numerals, right, hleft, hnumerals, hright, rfl⟩ := h
  have hmem {c : Char} (hc : c ∈ left ++ numerals ++ right) :
      (Text.isBlank c = true ∧ c ≠ '\n') ∨ c = '-' ∨ c.isDigit = true := by
    rw [List.mem_append, List.mem_append] at hc
    obtain (hc | hc) | hc := hc
    · exact .inl (hleft c hc)
    · exact hnumerals.mem hc
    · exact .inl (hright c hc)
  exact ⟨fun hc => absurd (hmem hc) (by decide), fun hc => absurd (hmem hc) (by decide)⟩

theorem RendersCode.append_gap (h : RendersCode row code) {gap : List Char} (hgap : IsGap gap) :
    RendersCode row (code ++ gap) := by
  obtain ⟨left, numerals, right, hleft, hnumerals, hright, rfl⟩ := h
  exact ⟨left, numerals, right ++ gap, hleft, hnumerals, hright.append hgap, by simp⟩

theorem RendersLine.notMem (h : RendersLine row line) : '\n' ∉ line := by
  cases h with
  | plain hcode => exact hcode.notMem.1
  | commented hcode hcomment => simp [hcode.notMem.1, hcomment]

/-- A carriage return at the end of a line is a blank or belongs to the comment. -/
theorem RendersLine.append_carriageReturn (h : RendersLine row line) :
    RendersLine row (line ++ ['\r']) := by
  cases h with
  | plain hcode =>
    have hgap : IsGap ['\r'] := by simp [IsGap, Text.isBlank, Text.blankRanges]
    exact .plain (hcode.append_gap hgap)
  | @commented code comment hcode hcomment =>
    rw [List.append_assoc, List.cons_append]
    exact .commented hcode (by simp [hcomment])

theorem RendersLine.tokenize_eq (h : RendersLine row line) : tokenize line = .ok row := by
  have hcode : ∃ code, BeforeComment line code ∧ RendersCode row code := by
    cases h with
    | plain hcode => exact ⟨line, ⟨hcode.notMem.2, .inl rfl⟩, hcode⟩
    | @commented code comment hcode _ =>
      exact ⟨code, ⟨hcode.notMem.2, .inr ⟨comment, rfl⟩⟩, hcode⟩
  obtain ⟨code, hbefore, hcode⟩ := hcode
  refine tokenize_of_words ?_
  rw [beforeComment_iff.1 hbefore, hcode.words.words_eq]

/-- The lines of a rendering spell the rows, one each. -/
theorem Renders.exists_lines {rows : List (List Int64)} {cs : List Char} (h : Renders rows cs) :
    ∃ lines, Text.Lines cs lines ∧ List.Forall₂ RendersLine rows lines := by
  induction h with
  | nil => exact ⟨[], .nil, .nil⟩
  | last hline hne => exact ⟨_, .last hne hline.notMem, .cons hline .nil⟩
  | lineFeed hline _ ih =>
    obtain ⟨lines, hlines, hrows⟩ := ih
    exact ⟨_, .cons hline.notMem hlines, .cons hline hrows⟩
  | @carriageReturn row line rest rows hline _ ih =>
    obtain ⟨lines, hlines, hrows⟩ := ih
    have hline' := hline.append_carriageReturn
    refine ⟨_, ?_, .cons hline' hrows⟩
    simpa using Text.Lines.cons hline'.notMem hlines

theorem exists_renders (rows : List (List Int64)) : ∃ cs, Renders rows cs := by
  induction rows with
  | nil => exact ⟨[], .nil⟩
  | cons row rows ih =>
    obtain ⟨rest, hrest⟩ := ih
    have hnone : IsGap [] := by simp [IsGap]
    have hcode : RendersCode row (Text.decimals " " row).toList :=
      ⟨[], _, [], hnone, Text.rendersNumerals_decimals row, hnone, by simp⟩
    exact ⟨_, .lineFeed (.plain hcode) hrest⟩

/-- Every list of rows has renderings, and each of them is read back as the script with these rows,
whatever its layout. -/
theorem renderings_are_read_back (rows : List (List Int64)) :
    (∃ text : String, Renders rows text.toList) ∧
      ∀ text : String, Renders rows text.toList → parse text = .ok (ofRows rows) := by
  constructor
  · obtain ⟨cs, hcs⟩ := exists_renders rows
    exact ⟨String.ofList cs, by rwa [String.toList_ofList]⟩
  · intro text h
    obtain ⟨lines, hlines, hrows⟩ := h.exists_lines
    refine parse_eq_ok_iff.2 ⟨rows, ?_, rfl⟩
    rw [hlines.lines_eq, mapM_eq_ok_iff]
    exact hrows.flip.imp fun _ _ hline => hline.tokenize_eq

/-- Several kinds of blanks, a comment, both terminators, an empty line and a last line that is not
terminated. -/
theorem mixedLayout_is_read_back :
    let rows : List (List Int64) := [[-9223372036854775808, 7], [], [5, 0]]
    let text := "\u3000-9223372036854775808 \t7; x ; 1\r\n\n5\u20050\r"
    Renders rows text.toList ∧ parse text = .ok (ofRows rows) := by
  intro rows text
  have hgaps : IsGap [] ∧ IsGap ['\u3000'] ∧ IsGap [' ', '\t'] ∧ IsGap ['\u2005'] ∧
      IsGap ['\r'] := by
    simp [IsGap, Text.isBlank, Text.blankRanges]
  obtain ⟨hnone, hleft, hwide, hnarrow, hright⟩ := hgaps
  have hfirst : RendersCode [-9223372036854775808, 7] _ :=
    ⟨_, _, _, hleft, .cons _ (by simp) hwide (.single 7), hnone, rfl⟩
  have hempty : RendersCode [] _ := ⟨_, _, _, hnone, .nil, hnone, rfl⟩
  have hlast : RendersCode [5, 0] _ :=
    ⟨_, _, _, hnone, .cons 5 (by simp) hnarrow (.single 0), hright, rfl⟩
  have hcomment : '\n' ∉ " x ; 1".toList := by decide
  have h : Renders rows text.toList := by
    convert Renders.carriageReturn (.commented hfirst hcomment)
      (.lineFeed (.plain hempty) (.last (.plain hlast) (by simp)))
    decide +kernel
  exact ⟨h, (renderings_are_read_back rows).2 text h⟩

end Script

end IntScript
