import IntScript.Machine.Input
import IntScript.Proofs.Grammar
import Mathlib.Data.List.DropRight

/-!
# Readers of a line

A line of input is read in one of four formats, each with a reader of its own. A single integer is
what is left of the line without the blanks around it, integers are its words, a character is a line
of length one, and a text is any line.

The readers agree wherever their formats meet. A line that is a single integer is a row of one
integer, and a line that is a character is a text of one character. A row of integers is a line that
could stand in a script.
-/

namespace IntScript

namespace Text

/-! ## Blanks around a text -/

/-- Nothing but blanks. -/
def IsBlankRun (cs : List Char) : Prop := ∀ c ∈ cs, isBlank c = true

theorem words_append_of_isBlankRun {blanks : List Char} (h : IsBlankRun blanks) (cs : List Char) :
    words (blanks ++ cs) = words cs := by
  induction blanks with
  | nil => rfl
  | cons c blanks ih =>
    obtain ⟨hc, hblanks⟩ := List.forall_mem_cons.1 h
    rw [List.cons_append, words_cons_of_isBlank hc, ih hblanks]

theorem words_append_isBlankRun (cs : List Char) {blanks : List Char} (h : IsBlankRun blanks) :
    words (cs ++ blanks) = words cs := by
  cases blanks with
  | nil => rw [List.append_nil]
  | cons c blanks =>
    obtain ⟨hc, hblanks⟩ := List.forall_mem_cons.1 h
    have hnone : words blanks = words [] := by
      simpa using words_append_of_isBlankRun hblanks []
    rw [words_append_cons hc, hnone]
    exact List.append_nil _

theorem exists_eq_append_trim (cs : List Char) :
    ∃ left right, IsBlankRun left ∧ IsBlankRun right ∧ cs = left ++ (trim cs ++ right) := by
  refine ⟨cs.takeWhile isBlank, (cs.dropWhile isBlank).rtakeWhile isBlank,
    fun c => List.mem_takeWhile_imp, fun c => List.mem_rtakeWhile_imp, ?_⟩
  have htrim : trim cs = (cs.dropWhile isBlank).rdropWhile isBlank := rfl
  rw [htrim, List.rdropWhile_append_rtakeWhile, List.takeWhile_append_dropWhile]

/-- A text has the same words without the blanks around it. -/
theorem words_trim (cs : List Char) : words (trim cs) = words cs := by
  obtain ⟨left, right, hleft, hright, hcs⟩ := exists_eq_append_trim cs
  conv_rhs => rw [hcs]
  rw [words_append_of_isBlankRun hleft, words_append_isBlankRun _ hright]

theorem IsWord.reverse {w : List Char} (h : IsWord w) : IsWord w.reverse :=
  ⟨by simpa using h.1, by simpa using h.2⟩

theorem IsWord.dropWhile_isBlank {w blanks : List Char} (h : IsWord w) (hblanks : IsBlankRun blanks)
    (cs : List Char) : (blanks ++ (w ++ cs)).dropWhile isBlank = w ++ cs := by
  obtain ⟨c, w, rfl⟩ := List.exists_cons_of_ne_nil h.1
  have hc : isBlank c = false := h.2 c List.mem_cons_self
  rw [List.dropWhile_append_of_pos hblanks, List.cons_append,
    List.dropWhile_cons_of_neg (by simp [hc])]

theorem IsWord.trim_eq {w left right : List Char} (h : IsWord w) (hleft : IsBlankRun left)
    (hright : IsBlankRun right) : trim (left ++ (w ++ right)) = w := by
  -- The blanks on the right are the ones in front once the rest is reversed.
  have hright' : IsBlankRun right.reverse := by simpa [IsBlankRun] using hright
  have hend := h.reverse.dropWhile_isBlank hright' []
  rw [List.append_nil] at hend
  rw [trim, h.dropWhile_isBlank hleft, List.reverse_append, hend, List.reverse_reverse]

/-- A text without words is blank. -/
theorem Words.isBlankRun {cs : List Char} (h : Words cs []) : IsBlankRun cs := by
  generalize hws : ([] : List (List Char)) = ws at h
  induction h with
  | nil => simp [IsBlankRun]
  | blank hc _ ih => exact List.forall_mem_cons.2 ⟨hc, ih hws⟩
  | word => cases hws

/-- A text of one word has blanks around it and nothing else. -/
theorem Words.exists_eq_append {cs w : List Char} (h : Words cs [w]) :
    IsWord w ∧ ∃ left right, IsBlankRun left ∧ IsBlankRun right ∧ cs = left ++ (w ++ right) := by
  generalize hws : [w] = ws at h
  induction h with
  | nil => cases hws
  | @blank c cs ws hc _ ih =>
    obtain ⟨hw, left, right, hleft, hright, rfl⟩ := ih hws
    exact ⟨hw, c :: left, right, List.forall_mem_cons.2 ⟨hc, hleft⟩, hright, rfl⟩
  | @word w' cs ws hw _ hrest =>
    obtain ⟨rfl, rfl⟩ := List.cons.inj hws
    exact ⟨hw, [], cs, by simp [IsBlankRun], hrest.isBlankRun, rfl⟩

/-- A text has one word exactly if it is this word without the blanks around it. -/
theorem words_eq_singleton_iff {cs w : List Char} : words cs = [w] ↔ IsWord w ∧ trim cs = w := by
  constructor
  · intro h
    obtain ⟨hw, left, right, hleft, hright, rfl⟩ := (words_eq_iff.2 h).exists_eq_append
    exact ⟨hw, hw.trim_eq hleft hright⟩
  · rintro ⟨hw, rfl⟩
    rw [← words_trim, hw.words_eq]

/-! ## Numerals on a line -/

theorem IsDigits.isWord {ds : List Char} (h : IsDigits ds) : IsWord ds := by
  refine ⟨h.1, fun d hd => isBlank_of_isDigit ?_⟩
  simpa [Char.isDigit, Char.le_def] using h.2 d hd

theorem Numeral.isWord {w : List Char} {value : Int} (h : Numeral w value) : IsWord w := by
  cases h with
  | unsigned hds => exact hds.isWord
  | plus hds | minus hds =>
    exact ⟨by simp, List.forall_mem_cons.2 ⟨by decide, hds.isWord.2⟩⟩

/-- A line is a numeral with blanks around it exactly if the numeral is its only word. -/
theorem numeral?_trim_eq_some_iff {cs : List Char} {n : Int64} :
    numeral? (trim cs) = some n ↔ (words cs).mapM numeral? = some [n] := by
  rw [mapM_eq_some_iff, List.forall₂_cons_right_iff]
  constructor
  · intro h
    have hword : IsWord (trim cs) := (numeral?_eq_some_iff.1 h).isWord
    exact ⟨trim cs, [], h, .nil, words_eq_singleton_iff.2 ⟨hword, rfl⟩⟩
  · rintro ⟨w, rest, h, hrest, hwords⟩
    obtain rfl := List.forall₂_nil_right_iff.1 hrest
    obtain ⟨-, rfl⟩ := words_eq_singleton_iff.1 hwords
    exact h

end Text

/-! ## Formats -/

namespace Script

/-- The tokens of a line without a comment are the values of its words. -/
theorem tokenize_eq_ok_iff_mapM {line : List Char} (h : ';' ∉ line) {tokens : List Int64} :
    tokenize line = .ok tokens ↔ (Text.words line).mapM Text.numeral? = some tokens := by
  rw [tokenize_eq_ok_iff, mapM_eq_some_iff, lineWords, beforeComment_of_notMem h]
  simp only [Text.numeral?_eq_some_iff]

end Script

namespace InputFormat

theorem readChars?_int_eq_some_iff {cs : List Char} {object : Object} :
    int.readChars? cs = some object ↔
      ∃ n, Text.numeral? (Text.trim cs) = some n ∧ object = .int n := by
  simp [readChars?, eq_comm]

theorem readChars?_ints_eq_some_iff {cs : List Char} {object : Object} :
    ints.readChars? cs = some object ↔
      ∃ ns, (Text.words cs).mapM Text.numeral? = some ns ∧ object = .array ns := by
  simp [readChars?, eq_comm]

/-- The four readers agree on every line.

A line is read as one integer exactly if it is read as an array of this integer alone, and as one
character exactly if it is read as a text of this character alone. A line without a semicolon is
read as an array of integers exactly if they are the tokens of the line in a script, so that the two
accept the same lines. -/
theorem readers_agree (text : String) :
    (∀ n, int.readChars? text.toList = some (.int n) ↔
      ints.readChars? text.toList = some (.array [n])) ∧
    (∀ c, char.readChars? text.toList = some (.int c) ↔
      line.readChars? text.toList = some (.array [c])) ∧
    (';' ∉ text.toList →
      (∀ vs, ints.readChars? text.toList = some (.array vs) ↔
        Script.tokenize text.toList = .ok vs) ∧
      ((∃ object, ints.readChars? text.toList = some object) ↔
        ∃ tokens, Script.tokenize text.toList = .ok tokens)) := by
  refine ⟨fun n => ?_, fun c => ?_, fun hcomment => ⟨fun vs => ?_, ?_⟩⟩
  · simp [readChars?_int_eq_some_iff, readChars?_ints_eq_some_iff, Text.numeral?_trim_eq_some_iff]
  · rcases text.toList with _ | ⟨d, _ | ⟨e, rest⟩⟩ <;> simp [readChars?]
  · simp [readChars?_ints_eq_some_iff, Script.tokenize_eq_ok_iff_mapM hcomment]
  · simp [readChars?_ints_eq_some_iff, Script.tokenize_eq_ok_iff_mapM hcomment]

/-- A numeral with a sign, a leading zero and blanks of several kinds around it. -/
theorem wideBlank_readers_agree :
    let text := "\u3000+07\r"
    ';' ∉ text.toList ∧ int.readChars? text.toList = some (.int 7) ∧
      ints.readChars? text.toList = some (.array [7]) ∧
      Script.tokenize text.toList = .ok [7] := by
  intro text
  have hcomment : ';' ∉ text.toList := by decide
  have hint : int.readChars? text.toList = some (.int 7) := by decide +kernel
  obtain ⟨hone, -, hmany⟩ := readers_agree text
  have hints := (hone 7).1 hint
  exact ⟨hcomment, hint, hints, ((hmany hcomment).1 [7]).1 hints⟩

-- Blanks between the digits make two words, and the text reader keeps every blank.
example : [int, ints, char, line].map (fun format => format.readChars? "1\u20052".toList) =
    [none, some (.array [1, 2]), none, some (.array [49, 0x2005, 50])] := by
  decide +kernel

end InputFormat

end IntScript
