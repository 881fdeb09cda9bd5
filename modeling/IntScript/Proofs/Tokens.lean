import IntScript.Script.Parser
import Mathlib.Data.List.TakeWhile

/-!
# Integers written on a line

Words with blanks between them are read back from the line they are written on. Numerals are words,
so a line of numerals is a statement that has their values as tokens.
-/

namespace IntScript

namespace Text

/-! ## Words -/

/-- The characters make up one word. -/
def IsWord (w : List Char) : Prop := w ≠ [] ∧ ∀ c ∈ w, isBlank c = false

theorem words_append_cons {c : Char} (hc : isBlank c = true) (as bs : List Char) :
    words (as ++ c :: bs) = words as ++ words bs := by
  rw [words, List.splitOnP_append_cons as bs hc, List.filter_append, words, words]

theorem IsWord.words_eq {w : List Char} (h : IsWord w) : words w = [w] := by
  simp [words, List.splitOnP_eq_singleton h.2, h.1]

theorem words_intercalate {c : Char} (hc : isBlank c = true) {ws : List (List Char)}
    (h : ∀ w ∈ ws, IsWord w) : words ([c].intercalate ws) = ws := by
  induction ws with
  | nil => rfl
  | cons w rest ih =>
    have hw : IsWord w := h w List.mem_cons_self
    cases rest with
    | nil => simpa using hw.words_eq
    | cons next rest =>
      rw [List.intercalate_cons_cons, List.append_assoc, List.singleton_append,
        words_append_cons hc, hw.words_eq, ih fun v hv => h v (List.mem_cons_of_mem w hv)]
      rfl

/-! ## Numerals -/

theorem sign_or_digit_of_mem_digits {n : Int} {c : Char} (h : c ∈ digits n) :
    c = '-' ∨ c.isDigit = true := by
  cases n with
  | ofNat n => exact .inr (Nat.isDigit_of_mem_toDigits (by decide) (by decide) h)
  | negSucc n =>
    obtain rfl | h := List.mem_cons.1 h
    · exact .inl rfl
    · exact .inr (Nat.isDigit_of_mem_toDigits (by decide) (by decide) h)

theorem isBlank_of_isDigit {c : Char} (h : c.isDigit = true) : isBlank c = false := by
  have hrange : 48 ≤ c.toNat ∧ c.toNat ≤ 57 := by
    simpa [Char.isDigit, UInt32.le_iff_toNat_le] using h
  simp only [isBlank, blankRanges, List.any_cons, List.any_nil, Bool.or_eq_false_iff,
    Bool.and_eq_false_iff, decide_eq_false_iff_not, and_true]
  omega

theorem isWord_digits (n : Int) : IsWord (digits n) := by
  constructor
  · cases n <;> simp [digits]
  · intro c hc
    obtain rfl | hdigit := sign_or_digit_of_mem_digits hc
    · rfl
    · exact isBlank_of_isDigit hdigit

theorem toList_decimals (separator : String) (ns : List Int64) :
    (decimals separator ns).toList =
      separator.toList.intercalate (ns.map fun n => digits n.toInt) := by
  simp [decimals, String.toList_intercalate, Function.comp_def]

/-- The numerals of a written row are read back as its words. -/
theorem words_decimals (ns : List Int64) :
    words (decimals " " ns).toList = ns.map fun n => digits n.toInt := by
  rw [toList_decimals]
  refine words_intercalate rfl fun w hw => ?_
  obtain ⟨n, -, rfl⟩ := List.mem_map.1 hw
  exact isWord_digits n.toInt

/-- The only characters of a numeral are a sign and digits. -/
theorem notMem_digits {c : Char} (hsign : c ≠ '-') (hdigit : c.isDigit = false) (n : Int) :
    c ∉ digits n := by
  intro hc
  obtain rfl | h := sign_or_digit_of_mem_digits hc
  · exact hsign rfl
  · exact absurd h (by simp [hdigit])

theorem notMem_decimals {c : Char} (hsign : c ≠ '-') (hdigit : c.isDigit = false)
    {separator : String} (hseparator : c ∉ separator.toList) (ns : List Int64) :
    c ∉ (decimals separator ns).toList := by
  have hdigits (n : Int64) : c ∉ digits n.toInt := notMem_digits hsign hdigit n.toInt
  rw [toList_decimals]
  induction ns with
  | nil => simp
  | cons n rest ih =>
    cases rest with
    | nil => simpa using hdigits n
    | cons next rest =>
      rw [List.map_cons, List.map_cons, List.intercalate_cons_cons]
      simpa [hseparator, hdigits n] using ih

end Text

namespace Script

/-! ## Statements -/

theorem beforeComment_of_notMem {line : List Char} (h : ';' ∉ line) :
    beforeComment line = line := by
  refine List.takeWhile_eq_self_iff.2 fun c hc => ?_
  simpa using ne_of_mem_of_not_mem hc h

/-- A line whose words are numerals has their values as tokens. -/
theorem tokenize_of_words {line : List Char} {ns : List Int64}
    (h : Text.words (beforeComment line) = ns.map fun n => Text.digits n.toInt) :
    tokenize line = .ok ns := by
  rw [tokenize, h]
  clear h
  induction ns with
  | nil => rfl
  | cons n rest ih =>
    rw [List.map_cons, List.mapM_cons, ih, Text.numeral?_digits]
    rfl

/-- A text on one line is one statement. -/
theorem parse_of_tokenize {text : String} (hline : '\n' ∉ text.toList) (hne : text ≠ "")
    {tokens : List Int64} (h : tokenize text.toList = .ok tokens) :
    parse text = .ok ⟨#[⟨1, tokens⟩]⟩ := by
  have hlines : Text.lines text.toList = [text.toList] := by
    simp [Text.lines, List.splitOn_eq_singleton hline, hne]
  have hstatements : parseLines [text.toList] = .ok [⟨1, tokens⟩] := by
    simp only [parseLines, List.zipIdx_singleton, List.mapM_cons, parseLine, h]
    rfl
  rw [parse, hlines, hstatements, Except.map]

/-- A row written in two parts is read as one statement. -/
theorem parse_decimals_append (ms ns : List Int64) :
    parse (Text.decimals " " ms ++ " " ++ Text.decimals " " ns) = .ok ⟨#[⟨1, ms ++ ns⟩]⟩ := by
  set text := Text.decimals " " ms ++ " " ++ Text.decimals " " ns with htext
  have hchars : text.toList =
      (Text.decimals " " ms).toList ++ ' ' :: (Text.decimals " " ns).toList := by
    simp [htext]
  have hplain {c : Char} (hblank : c ≠ ' ') (hsign : c ≠ '-') (hdigit : c.isDigit = false) :
      c ∉ text.toList := by
    have hrow (ks : List Int64) : c ∉ (Text.decimals " " ks).toList :=
      Text.notMem_decimals hsign hdigit (by simpa using hblank) ks
    simp [hchars, hrow, hblank]
  have hne : text ≠ "" := by
    intro h
    simp [h] at hchars
  refine parse_of_tokenize (hplain (by decide) (by decide) (by decide)) hne (tokenize_of_words ?_)
  rw [beforeComment_of_notMem (hplain (by decide) (by decide) (by decide)), hchars,
    Text.words_append_cons rfl, Text.words_decimals, Text.words_decimals, List.map_append]

end Script

end IntScript
