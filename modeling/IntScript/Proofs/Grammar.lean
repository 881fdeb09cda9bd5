import IntScript.Proofs.Action
import IntScript.Proofs.Tokens
import Mathlib.Data.List.Forall2
import Mathlib.Data.List.Induction
import Mathlib.Data.Nat.Digits.Defs

/-!
# The grammar of source texts

What a source text consists of, said without the functions that take it apart: lines, the part of a
line before its comment, words and numerals. A text has one such reading. It is a script exactly if
all of its words are numerals of 64-bit integers, and otherwise the first word that is none is
reported.
-/

namespace IntScript

namespace Text

/-! ## Numerals -/

/-- One or more ASCII digits. -/
def IsDigits (ds : List Char) : Prop := ds ≠ [] ∧ ∀ d ∈ ds, '0' ≤ d ∧ d ≤ '9'

/-- The number with the given decimal digits, the last of which counts the units. -/
def positional (ds : List Char) : Nat :=
  Nat.ofDigits 10 (ds.reverse.map fun d => d.toNat - '0'.toNat)

/-- A word of digits, behind at most one sign, and its value. -/
inductive Numeral : List Char → Int → Prop where
  | unsigned {ds : List Char} : IsDigits ds → Numeral ds (positional ds)
  | plus {ds : List Char} : IsDigits ds → Numeral ('+' :: ds) (positional ds)
  | minus {ds : List Char} : IsDigits ds → Numeral ('-' :: ds) (-(positional ds : Int))

/-- The word is a numeral of a 64-bit integer. -/
def IsToken (word : List Char) : Prop :=
  ∃ value, Numeral word value ∧ -2 ^ 63 ≤ value ∧ value ≤ 2 ^ 63 - 1

theorem ofDigitChars_eq_positional (ds : List Char) : Nat.ofDigitChars 10 ds 0 = positional ds := by
  induction ds using List.reverseRecOn with
  | nil => rfl
  | append_singleton ds d ih =>
    rw [Nat.ofDigitChars_append, ih]
    simp [positional, Nat.ofDigits_cons, Nat.ofDigitChars_cons]
    omega

theorem natural?_eq_some_iff {ds : List Char} {n : Nat} :
    natural? ds = some n ↔ IsDigits ds ∧ positional ds = n := by
  simp [natural?, IsDigits, ofDigitChars_eq_positional, Char.isDigit, Char.le_def]

theorem integer?_eq_some_iff {word : List Char} {value : Int} :
    integer? word = some value ↔ Numeral word value := by
  constructor
  · intro h
    unfold integer? at h
    split at h <;> obtain ⟨n, hn, rfl⟩ := Option.map_eq_some_iff.1 h <;>
      obtain ⟨hds, rfl⟩ := natural?_eq_some_iff.1 hn
    · exact .plus hds
    · exact .minus hds
    · exact .unsigned hds
  · intro h
    cases h with
    | plus hds => simp [integer?, natural?_eq_some_iff.2 ⟨hds, rfl⟩]
    | minus hds => simp [integer?, natural?_eq_some_iff.2 ⟨hds, rfl⟩]
    | unsigned hds =>
      -- A sign is no digit, so that the first character does not decide the form.
      unfold integer?
      split
      next ds => exact absurd (hds.2 '+' (by simp)) (by decide)
      next ds => exact absurd (hds.2 '-' (by simp)) (by decide)
      next => simp [natural?_eq_some_iff.2 ⟨hds, rfl⟩]

theorem int64?_eq_some_iff {value : Int} {n : Int64} : int64? value = some n ↔ n.toInt = value := by
  constructor
  · intro h
    unfold int64? at h
    split at h
    next hrange =>
      rw [Int64.toInt_minValue, Int64.toInt_maxValue] at hrange
      obtain rfl := Option.some.inj h
      exact Int64.toInt_ofInt_of_le hrange.1 (by omega)
    next => cases h
  · rintro rfl
    exact int64?_toInt n

/-- A numeral is read as the 64-bit integer with its value. -/
theorem numeral?_eq_some_iff {word : List Char} {n : Int64} :
    numeral? word = some n ↔ Numeral word n.toInt := by
  rw [numeral?, Option.bind_eq_some_iff]
  constructor
  · rintro ⟨value, hvalue, hn⟩
    rw [int64?_eq_some_iff.1 hn]
    exact integer?_eq_some_iff.1 hvalue
  · intro h
    exact ⟨n.toInt, integer?_eq_some_iff.2 h, int64?_toInt n⟩

theorem isToken_iff {word : List Char} : IsToken word ↔ ∃ n, numeral? word = some n := by
  constructor
  · rintro ⟨value, hvalue, hlow, hhigh⟩
    refine ⟨Int64.ofInt value, numeral?_eq_some_iff.2 ?_⟩
    rwa [Int64.toInt_ofInt_of_le hlow (by omega)]
  · rintro ⟨n, hn⟩
    refine ⟨n.toInt, numeral?_eq_some_iff.1 hn, n.le_toInt, ?_⟩
    have := n.toInt_lt
    omega

/-! ## Words and lines -/

/-- The words are the maximal runs of characters that are not blank. -/
inductive Words : List Char → List (List Char) → Prop where
  | nil : Words [] []
  | blank {c : Char} {cs : List Char} {ws : List (List Char)} : isBlank c = true → Words cs ws →
      Words (c :: cs) ws
  /-- A word is followed by a blank or by nothing. -/
  | word {w cs : List Char} {ws : List (List Char)} : IsWord w →
      (∀ c, cs.head? = some c → isBlank c = true) → Words cs ws → Words (w ++ cs) (w :: ws)

theorem words_cons_of_isBlank {c : Char} (hc : isBlank c = true) (cs : List Char) :
    words (c :: cs) = words cs :=
  words_append_cons hc [] cs

theorem Words.words_eq {cs : List Char} {ws : List (List Char)} (h : Words cs ws) :
    words cs = ws := by
  induction h with
  | nil => rfl
  | blank hc _ ih => rw [words_cons_of_isBlank hc, ih]
  | @word w cs ws hw hnext _ ih =>
    cases cs with
    | nil => rw [List.append_nil, hw.words_eq, ← ih]; rfl
    | cons c cs =>
      have hc := hnext c rfl
      rw [words_append_cons hc, hw.words_eq, ← ih, words_cons_of_isBlank hc]
      rfl

theorem exists_words (cs : List Char) : ∃ ws, Words cs ws := by
  induction cs with
  | nil => exact ⟨[], .nil⟩
  | cons c cs ih =>
    obtain ⟨ws, hws⟩ := ih
    by_cases hc : isBlank c = true
    · exact ⟨ws, .blank hc hws⟩
    · rw [Bool.not_eq_true] at hc
      have hword : IsWord [c] := ⟨by simp, by simpa using hc⟩
      -- The character is a word by itself unless the rest begins with a word, which it then joins.
      cases hws with
      | nil => exact ⟨_, .word hword (by simp) .nil⟩
      | blank hb hws => exact ⟨_, .word hword (by simpa using hb) (.blank hb hws)⟩
      | word hw hnext hws =>
        have hlonger : IsWord (c :: _) := ⟨by simp, List.forall_mem_cons.2 ⟨hc, hw.2⟩⟩
        exact ⟨_, .word hlonger hnext hws⟩

theorem words_eq_iff {cs : List Char} {ws : List (List Char)} : Words cs ws ↔ words cs = ws := by
  refine ⟨Words.words_eq, ?_⟩
  rintro rfl
  obtain ⟨ws, hws⟩ := exists_words cs
  rwa [hws.words_eq]

/-- The lines are the pieces between line feeds, without a last piece that is empty. -/
inductive Lines : List Char → List (List Char) → Prop where
  | nil : Lines [] []
  | last {line : List Char} : line ≠ [] → '\n' ∉ line → Lines line [line]
  | cons {line rest : List Char} {ls : List (List Char)} : '\n' ∉ line → Lines rest ls →
      Lines (line ++ '\n' :: rest) (line :: ls)

theorem lines_append_cons {line : List Char} (h : '\n' ∉ line) (rest : List Char) :
    lines (line ++ '\n' :: rest) = line :: lines rest := by
  obtain ⟨piece, pieces, hpieces⟩ := List.exists_cons_of_ne_nil (List.splitOn_ne_nil '\n' rest)
  simp only [lines, List.splitOn_append_cons_self_of_not_mem h, hpieces, List.getLast?_cons_cons,
    List.dropLast_cons_cons]
  split <;> rfl

theorem Lines.lines_eq {cs : List Char} {ls : List (List Char)} (h : Lines cs ls) :
    lines cs = ls := by
  induction h with
  | nil => rfl
  | last hne hline => simp [lines, List.splitOn_eq_singleton hline, hne]
  | cons hline _ ih => rw [lines_append_cons hline, ih]

theorem exists_lines (cs : List Char) : ∃ ls, Lines cs ls := by
  induction cs with
  | nil => exact ⟨[], .nil⟩
  | cons c cs ih =>
    obtain ⟨ls, hls⟩ := ih
    by_cases hc : c = '\n'
    · subst hc
      exact ⟨[] :: ls, .cons (List.not_mem_nil : '\n' ∉ []) hls⟩
    · have hlonger {line : List Char} (h : '\n' ∉ line) : '\n' ∉ c :: line :=
        List.not_mem_cons_of_ne_of_not_mem (Ne.symm hc) h
      cases hls with
      | nil => exact ⟨_, .last (by simp) (hlonger List.not_mem_nil)⟩
      | last _ hline => exact ⟨_, .last (by simp) (hlonger hline)⟩
      | cons hline hls => exact ⟨_, .cons (hlonger hline) hls⟩

theorem lines_eq_iff {cs : List Char} {ls : List (List Char)} : Lines cs ls ↔ lines cs = ls := by
  refine ⟨Lines.lines_eq, ?_⟩
  rintro rfl
  obtain ⟨ls, hls⟩ := exists_lines cs
  rwa [hls.lines_eq]

end Text

/-! ## Results of a traversal -/

section Traversal

variable {ε α β : Type} {f : α → Except ε β}

theorem map_eq_error_iff {x : Except ε α} {g : α → β} {e : ε} :
    x.map g = .error e ↔ x = .error e := by
  cases x <;> simp [Except.map]

theorem mapM_cons_eq_bind (x : α) (xs : List α) :
    (x :: xs).mapM f = (f x).bind fun y => (xs.mapM f).map fun ys => y :: ys :=
  List.mapM_cons

theorem mapM_eq_ok_iff {xs : List α} {ys : List β} :
    xs.mapM f = .ok ys ↔ List.Forall₂ (fun x y => f x = .ok y) xs ys := by
  induction xs generalizing ys with
  | nil => simp [pure, Except.pure, eq_comm]
  | cons x xs ih =>
    rw [mapM_cons_eq_bind, bind_eq_ok_iff, List.forall₂_cons_left_iff]
    simp only [map_eq_ok_iff, ih, exists_and_left, @eq_comm _ ys]

theorem mapM_eq_some_iff {g : α → Option β} {xs : List α} {ys : List β} :
    xs.mapM g = some ys ↔ List.Forall₂ (fun x y => g x = some y) xs ys := by
  induction xs generalizing ys with
  | nil => simp [eq_comm]
  | cons x xs ih =>
    simp [List.mapM_cons, List.forall₂_cons_left_iff, Option.bind_eq_some_iff, ih, @eq_comm _ ys]

/-- A traversal fails with the first error. -/
theorem mapM_eq_error_iff {xs : List α} {e : ε} :
    xs.mapM f = .error e ↔
      ∃ before x after, xs = before ++ x :: after ∧ (∀ y ∈ before, ∃ b, f y = .ok b) ∧
        f x = .error e := by
  induction xs with
  | nil => simp [pure, Except.pure]
  | cons x xs ih =>
    cases hx : f x with
    | error e' =>
      rw [mapM_cons_eq_bind, hx, Except.bind, Except.error.injEq]
      constructor
      · rintro rfl
        exact ⟨[], x, xs, rfl, by simp, hx⟩
      · rintro ⟨before, y, after, hsplit, hbefore, hy⟩
        cases before with
        | nil =>
          obtain ⟨rfl, rfl⟩ := List.cons.inj hsplit
          exact Except.error.inj (hx.symm.trans hy)
        | cons b before =>
          obtain ⟨rfl, -⟩ := List.cons.inj hsplit
          obtain ⟨v, hv⟩ := hbefore x List.mem_cons_self
          cases hx.symm.trans hv
    | ok v =>
      rw [mapM_cons_eq_bind, hx, Except.bind, map_eq_error_iff, ih]
      constructor
      · rintro ⟨before, y, after, rfl, hbefore, hy⟩
        exact ⟨x :: before, y, after, rfl, List.forall_mem_cons.2 ⟨⟨v, hx⟩, hbefore⟩, hy⟩
      · rintro ⟨before, y, after, hsplit, hbefore, hy⟩
        cases before with
        | nil =>
          obtain ⟨rfl, rfl⟩ := List.cons.inj hsplit
          cases hx.symm.trans hy
        | cons b before =>
          obtain ⟨rfl, rfl⟩ := List.cons.inj hsplit
          exact ⟨before, y, after, rfl, (List.forall_mem_cons.1 hbefore).2, hy⟩

theorem exists_mapM_iff {xs : List α} :
    (∃ ys, xs.mapM f = .ok ys) ↔ ∀ x ∈ xs, ∃ y, f x = .ok y := by
  constructor
  · rintro ⟨ys, h⟩
    have hpairs := mapM_eq_ok_iff.1 h
    clear h
    induction hpairs with
    | nil => simp
    | cons hxy _ ih => exact List.forall_mem_cons.2 ⟨⟨_, hxy⟩, ih⟩
  · intro h
    cases hresult : xs.mapM f with
    | ok ys => exact ⟨ys, rfl⟩
    | error e =>
      obtain ⟨before, x, after, rfl, -, hx⟩ := mapM_eq_error_iff.1 hresult
      obtain ⟨y, hy⟩ := h x (by simp)
      cases hx.symm.trans hy

end Traversal

/-! ## Source texts -/

namespace Script

open Text (IsToken Numeral)

/-- The part of a line before its first semicolon. -/
def BeforeComment (line code : List Char) : Prop :=
  ';' ∉ code ∧ (line = code ∨ ∃ comment, line = code ++ ';' :: comment)

/-- The words of a source text, in one row for each line. -/
def Source (text : List Char) (rows : List (List (List Char))) : Prop :=
  ∃ lines, Text.Lines text lines ∧
    List.Forall₂ (fun line row => ∃ code, BeforeComment line code ∧ Text.Words code row) lines rows

/-- The first word that is no token, with the number of its row. -/
def FirstOffence (rows : List (List (List Char))) (number : Nat) (word : List Char) : Prop :=
  ∃ before left right after, rows = before ++ (left ++ word :: right) :: after ∧
    number = before.length + 1 ∧ (∀ row ∈ before, ∀ w ∈ row, IsToken w) ∧
    (∀ w ∈ left, IsToken w) ∧ ¬ IsToken word

theorem beforeComment_iff {line code : List Char} :
    BeforeComment line code ↔ beforeComment line = code := by
  constructor
  · rintro ⟨hcode, rfl | ⟨comment, rfl⟩⟩
    · exact beforeComment_of_notMem hcode
    · rw [beforeComment, List.takeWhile_append_of_pos]
      · simp
      · intro c hc
        simpa using ne_of_mem_of_not_mem hc hcode
  · rintro rfl
    refine ⟨fun h => by simpa using List.mem_takeWhile_imp h, ?_⟩
    have hsplit : beforeComment line ++ line.dropWhile (· != ';') = line :=
      List.takeWhile_append_dropWhile
    cases hrest : line.dropWhile (· != ';') with
    | nil =>
      rw [hrest, List.append_nil] at hsplit
      exact .inl hsplit.symm
    | cons c comment =>
      have hc := List.head?_dropWhile_not (· != ';') line
      rw [hrest] at hc
      obtain rfl : c = ';' := by simpa using hc
      rw [hrest] at hsplit
      exact .inr ⟨comment, hsplit.symm⟩

/-- The words of a line. -/
def lineWords (line : List Char) : List (List Char) := Text.words (beforeComment line)

/-- A text has one reading. -/
theorem source_iff {text : List Char} {rows : List (List (List Char))} :
    Source text rows ↔ rows = (Text.lines text).map lineWords := by
  have hrow (line : List Char) (row : List (List Char)) :
      (∃ code, BeforeComment line code ∧ Text.Words code row) ↔ lineWords line = row := by
    simp [beforeComment_iff, Text.words_eq_iff, lineWords]
  simp only [Source, Text.lines_eq_iff, exists_eq_left', hrow]
  rw [← List.forall₂_map_left_iff (R := (· = ·)), List.forall₂_eq_eq_eq, eq_comm]

/-! ## Statements -/

/-- The integer that a word stands for, or the word. -/
def readWord (word : List Char) : Except (List Char) Int64 :=
  match Text.numeral? word with
  | some n => .ok n
  | none => .error word

theorem readWord_eq_ok_iff {word : List Char} {n : Int64} :
    readWord word = .ok n ↔ Numeral word n.toInt := by
  rw [← Text.numeral?_eq_some_iff, readWord]
  cases Text.numeral? word <;> simp

theorem readWord_isToken_iff {word : List Char} : (∃ n, readWord word = .ok n) ↔ IsToken word := by
  simp [readWord_eq_ok_iff, Text.isToken_iff, Text.numeral?_eq_some_iff]

theorem readWord_eq_error_iff {word other : List Char} :
    readWord word = .error other ↔ word = other ∧ ¬ IsToken word := by
  rw [Text.isToken_iff, readWord]
  cases Text.numeral? word <;> simp

theorem tokenize_eq (line : List Char) :
    tokenize line = (lineWords line).mapM readWord := rfl

theorem tokenize_eq_ok_iff {line : List Char} {tokens : List Int64} :
    tokenize line = .ok tokens ↔
      List.Forall₂ (fun word n => Numeral word n.toInt) (lineWords line) tokens := by
  rw [tokenize_eq, mapM_eq_ok_iff]
  simp only [readWord_eq_ok_iff]

theorem tokenize_eq_error_iff {line word : List Char} :
    tokenize line = .error word ↔
      ∃ left right, lineWords line = left ++ word :: right ∧
        (∀ w ∈ left, IsToken w) ∧ ¬ IsToken word := by
  rw [tokenize_eq, mapM_eq_error_iff]
  simp only [readWord_isToken_iff, readWord_eq_error_iff]
  constructor
  · rintro ⟨left, _, right, hwords, hleft, rfl, hword⟩
    exact ⟨left, right, hwords, hleft, hword⟩
  · rintro ⟨left, right, hwords, hleft, hword⟩
    exact ⟨left, word, right, hwords, hleft, rfl, hword⟩

theorem exists_tokenize_iff {line : List Char} :
    (∃ tokens, tokenize line = .ok tokens) ↔ ∀ w ∈ lineWords line, IsToken w := by
  simp only [tokenize_eq, exists_mapM_iff, readWord_isToken_iff]

theorem parseLine_eq_ok_iff {line : List Char} {number : Nat} {statement : Statement} :
    parseLine line number = .ok statement ↔
      ∃ tokens, tokenize line = .ok tokens ∧ statement = ⟨number, tokens⟩ := by
  unfold parseLine
  cases tokenize line <;> simp [eq_comm]

theorem parseLine_eq_error_iff {line : List Char} {number : Nat} {error : ParseError} :
    parseLine line number = .error error ↔
      ∃ word, tokenize line = .error word ∧ error = ⟨number, String.ofList word⟩ := by
  unfold parseLine
  cases tokenize line <;> simp [eq_comm]

theorem parseLines_eq (lines : List (List Char)) :
    parseLines lines = (lines.zipIdx 1).mapM fun line => parseLine line.1 line.2 := rfl

theorem forall₂_parseLine_zipIdx_iff {lines : List (List Char)} {first : Nat}
    {statements : List Statement} :
    List.Forall₂ (fun line statement => parseLine line.1 line.2 = .ok statement)
        (lines.zipIdx first) statements ↔
      ∃ rows, List.Forall₂ (fun line tokens => tokenize line = .ok tokens) lines rows ∧
        statements = (rows.zipIdx first).map fun row => ⟨row.2, row.1⟩ := by
  induction lines generalizing first statements with
  | nil => simp
  | cons line lines ih =>
    rw [List.zipIdx_cons, List.forall₂_cons_left_iff]
    constructor
    · rintro ⟨_, _, hline, hlines, rfl⟩
      obtain ⟨tokens, htokens, rfl⟩ := parseLine_eq_ok_iff.1 hline
      obtain ⟨rows, hrows, rfl⟩ := ih.1 hlines
      exact ⟨tokens :: rows, .cons htokens hrows, rfl⟩
    · rintro ⟨_, _ | ⟨htokens, hrows⟩, rfl⟩
      exact ⟨_, _, parseLine_eq_ok_iff.2 ⟨_, htokens, rfl⟩, ih.2 ⟨_, hrows, rfl⟩, rfl⟩

theorem parse_eq_ok_iff {text : String} {script : Script} :
    parse text = .ok script ↔
      ∃ rows, (Text.lines text.toList).mapM tokenize = .ok rows ∧ ofRows rows = script := by
  rw [parse, map_eq_ok_iff, parseLines_eq]
  simp only [mapM_eq_ok_iff]
  constructor
  · rintro ⟨_, hstatements, rfl⟩
    obtain ⟨rows, hrows, rfl⟩ := forall₂_parseLine_zipIdx_iff.1 hstatements
    exact ⟨rows, hrows, rfl⟩
  · rintro ⟨rows, hrows, rfl⟩
    exact ⟨_, forall₂_parseLine_zipIdx_iff.2 ⟨rows, hrows, rfl⟩, rfl⟩

theorem exists_parse_iff {text : String} :
    (∃ script, parse text = .ok script) ↔
      ∀ row ∈ (Text.lines text.toList).map lineWords, ∀ word ∈ row, IsToken word := by
  have hrows : (∃ script, parse text = .ok script) ↔
      ∃ rows, (Text.lines text.toList).mapM tokenize = .ok rows := by
    simp [parse_eq_ok_iff]
  rw [hrows, exists_mapM_iff, List.forall_mem_map]
  simp only [exists_tokenize_iff]

theorem forall_mem_zipIdx_exists_parseLine_iff {lines : List (List Char)} {first : Nat} :
    (∀ line ∈ lines.zipIdx first, ∃ statement, parseLine line.1 line.2 = .ok statement) ↔
      ∀ line ∈ lines, ∃ tokens, tokenize line = .ok tokens := by
  induction lines generalizing first with
  | nil => simp
  | cons line lines ih =>
    rw [List.zipIdx_cons, List.forall_mem_cons, List.forall_mem_cons, ih]
    simp [parseLine_eq_ok_iff]

theorem parse_eq_error_iff {text : String} {error : ParseError} :
    parse text = .error error ↔
      ∃ before line after word, Text.lines text.toList = before ++ line :: after ∧
        (∀ l ∈ before, ∃ tokens, tokenize l = .ok tokens) ∧ tokenize line = .error word ∧
        error = ⟨before.length + 1, String.ofList word⟩ := by
  rw [parse, map_eq_error_iff, parseLines_eq, mapM_eq_error_iff]
  constructor
  · rintro ⟨_, ⟨line, number⟩, _, hsplit, hbefore, hline⟩
    obtain ⟨before, rest, hlines, rfl, hrest⟩ := List.zipIdx_eq_append_iff.1 hsplit
    obtain ⟨_, after, rfl, hhead, -⟩ := List.zipIdx_eq_cons_iff.1 hrest.symm
    obtain ⟨rfl, rfl⟩ := Prod.mk.inj hhead
    obtain ⟨word, hword, rfl⟩ := parseLine_eq_error_iff.1 hline
    rw [forall_mem_zipIdx_exists_parseLine_iff] at hbefore
    exact ⟨before, line, after, word, hlines, hbefore, hword, by rw [Nat.add_comm]⟩
  · rintro ⟨before, line, after, word, hlines, hbefore, hword, rfl⟩
    refine ⟨before.zipIdx 1, (line, before.length + 1), after.zipIdx (before.length + 1 + 1), ?_,
      forall_mem_zipIdx_exists_parseLine_iff.2 hbefore, parseLine_eq_error_iff.2 ⟨word, hword, rfl⟩⟩
    rw [hlines, List.zipIdx_append, List.zipIdx_cons, Nat.add_comm 1]

theorem parse_eq_error_iff_firstOffence {text : String} {error : ParseError} :
    parse text = .error error ↔
      FirstOffence ((Text.lines text.toList).map lineWords) error.line error.token.toList := by
  rw [parse_eq_error_iff]
  simp only [exists_tokenize_iff, tokenize_eq_error_iff]
  constructor
  · rintro ⟨before, line, after, word, hlines, hbefore, ⟨left, right, hwords, hleft, hword⟩, rfl⟩
    refine ⟨before.map lineWords, left, right, after.map lineWords, ?_, ?_, ?_, hleft, ?_⟩
    · simp [hlines, hwords]
    · simp
    · exact List.forall_mem_map.2 hbefore
    · simpa using hword
  · rintro ⟨_, left, right, _, hrows, hnumber, hbefore, hleft, hword⟩
    obtain ⟨before, rest, hlines, rfl, hrest⟩ := List.map_eq_append_iff.1 hrows
    obtain ⟨line, after, rfl, hwords, -⟩ := List.map_eq_cons_iff.1 hrest
    refine ⟨before, line, after, error.token.toList, hlines, List.forall_mem_map.1 hbefore,
      ⟨left, right, hwords, hleft, hword⟩, ?_⟩
    rw [List.length_map] at hnumber
    rw [String.ofList_toList, ← hnumber]

theorem size_ofRows (rows : List (List Int64)) : (ofRows rows).size = rows.length := by
  simp [ofRows, size]

theorem statement?_ofRows (rows : List (List Int64)) (k : Nat) :
    (ofRows rows).statement? k = rows[k]?.map fun tokens => ⟨k + 1, tokens⟩ := by
  simp [ofRows, statement?, List.getElem?_zipIdx, Nat.add_comm, Function.comp_def]

/-- The words of a row have no other values. -/
theorem forall₂_numeral_iff {row : List (List Char)} {tokens : List Int64}
    (h : List.Forall₂ (fun word n => Numeral word n.toInt) row tokens) (tokens' : List Int64) :
    List.Forall₂ (fun word n => Numeral word n.toInt) row tokens' ↔ tokens' = tokens := by
  simp only [← readWord_eq_ok_iff, ← mapM_eq_ok_iff] at h ⊢
  rw [h, Except.ok.injEq, eq_comm]

/-- A script has one statement for each row of words. -/
theorem statement?_of_parse {text : String} {script : Script} (h : parse text = .ok script) :
    script.size = (Text.lines text.toList).length ∧
      ∀ k row, ((Text.lines text.toList).map lineWords)[k]? = some row →
        ∃ tokens, script.statement? k = some ⟨k + 1, tokens⟩ ∧
          List.Forall₂ (fun word n => Numeral word n.toInt) row tokens := by
  obtain ⟨rows, hrows, rfl⟩ := parse_eq_ok_iff.1 h
  have hpairs := mapM_eq_ok_iff.1 hrows
  refine ⟨by rw [size_ofRows, hpairs.length_eq], ?_⟩
  intro k row hrow
  rw [List.getElem?_map, Option.map_eq_some_iff] at hrow
  obtain ⟨line, hline, rfl⟩ := hrow
  obtain ⟨hk, rfl⟩ := List.getElem?_eq_some_iff.1 hline
  have hk' : k < rows.length := hpairs.length_eq ▸ hk
  refine ⟨rows[k], by simp [statement?_ofRows, hk'], ?_⟩
  exact tokenize_eq_ok_iff.1 (hpairs.get hk hk')

/-- A text is a script exactly if its words are numerals of 64-bit integers. It then has one
statement for each line, with the values of the words on that line; otherwise the first other word
is reported. -/
theorem parse_follows_grammar (text : String) :
    ∃ rows, (∀ rows', Source text.toList rows' ↔ rows' = rows) ∧
      ((∃ script, parse text = .ok script) ↔ ∀ row ∈ rows, ∀ word ∈ row, IsToken word) ∧
      (∀ script, parse text = .ok script →
        script.size = rows.length ∧
          ∀ k row, rows[k]? = some row → ∃ tokens, script.statement? k = some ⟨k + 1, tokens⟩ ∧
            ∀ tokens', List.Forall₂ (fun word n => Numeral word n.toInt) row tokens' ↔
              tokens' = tokens) ∧
      ∀ error, parse text = .error error ↔
        FirstOffence rows error.line error.token.toList := by
  refine ⟨(Text.lines text.toList).map lineWords, fun _ => source_iff, exists_parse_iff, ?_,
    fun _ => parse_eq_error_iff_firstOffence⟩
  intro script hscript
  obtain ⟨hsize, hstatements⟩ := statement?_of_parse hscript
  refine ⟨by rw [hsize, List.length_map], fun k row hrow => ?_⟩
  obtain ⟨tokens, hstatement, htokens⟩ := hstatements k row hrow
  exact ⟨tokens, hstatement, forall₂_numeral_iff htokens⟩

example : parse "+7 -0\u3000; x\n\r\n0000000000000000000012" = .ok (ofRows [[7, 0], [], [12]]) := by
  decide +kernel

example : parse "-9223372036854775808 ;\n0 9223372036854775808 +-1" =
    .error ⟨2, "9223372036854775808"⟩ := by
  decide +kernel

end Script

end IntScript
