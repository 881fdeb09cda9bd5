import IntScript.Proofs.Appending
import IntScript.Proofs.Grammar

/-!
# Texts one behind the other

A text that consists of whole lines can be followed by any other text without a line of either being
changed. The statements of the second text are then those it has alone, further down by the number
of lines before it, and so is the first word in it that is no numeral. An offence in the first text
comes before anything in the second.
-/

namespace IntScript

/-- The statement on a line that is `n` lines further down. -/
def Statement.moveDown (n : Nat) (s : Statement) : Statement := { s with line := s.line + n }

/-- The script with all of its lines `n` lines further down. -/
def Script.moveDown (n : Nat) (script : Script) : Script :=
  ⟨script.statements.map (Statement.moveDown n)⟩

/-- The same word on a line that is `n` lines further down. -/
def ParseError.moveDown (n : Nat) (e : ParseError) : ParseError := { e with line := e.line + n }

namespace Text

/-- Nothing, or lines that are all terminated. -/
def IsWholeLines (cs : List Char) : Prop := cs = [] ∨ ∃ front, cs = front ++ ['\n']

theorem isWholeLines_of_append_cons {line rest : List Char}
    (h : IsWholeLines (line ++ '\n' :: rest)) : IsWholeLines rest := by
  obtain h | ⟨front, h⟩ := h
  · simp at h
  · obtain rfl | ⟨front', last, rfl⟩ := rest.eq_nil_or_concat
    · exact .inl rfl
    · have hsplit : (line ++ '\n' :: front') ++ [last] = front ++ ['\n'] := by simpa using h
      obtain ⟨-, hlast⟩ := List.append_inj' hsplit rfl
      exact .inr ⟨front', by simp [hlast]⟩

/-- Whole lines stay the lines they are, whatever follows them. -/
theorem Lines.append {as bs : List Char} {ls ks : List (List Char)} (ha : Lines as ls)
    (hb : Lines bs ks) (h : IsWholeLines as) : Lines (as ++ bs) (ls ++ ks) := by
  induction ha with
  | nil => exact hb
  | last hne hline =>
    -- A line that is not terminated is no whole line.
    obtain rfl | ⟨front, rfl⟩ := h
    · exact absurd rfl hne
    · simp at hline
  | @cons line rest ls hline _ ih =>
    rw [List.append_assoc, List.cons_append]
    exact .cons hline (ih (isWholeLines_of_append_cons h))

theorem lines_append {as : List Char} (h : IsWholeLines as) (bs : List Char) :
    lines (as ++ bs) = lines as ++ lines bs := by
  have ha : Lines as (lines as) := lines_eq_iff.2 rfl
  have hb : Lines bs (lines bs) := lines_eq_iff.2 rfl
  exact (ha.append hb h).lines_eq

end Text

namespace Script

variable {a b : String} {first second : Script} {error : ParseError}

theorem ofRows_append (rows rows' : List (List Int64)) :
    ofRows (rows ++ rows') = ofRows rows ++ (ofRows rows').moveDown rows.length := by
  have hmoved : (rows'.zipIdx (1 + rows.length)).map (fun row => (⟨row.2, row.1⟩ : Statement)) =
      ((rows'.zipIdx 1).map fun row => ⟨row.2, row.1⟩).map (Statement.moveDown rows.length) := by
    rw [Nat.add_comm, ← List.map_snd_add_zipIdx_eq_zipIdx]
    simp [Statement.moveDown, Function.comp_def]
  have hstatements : (ofRows (rows ++ rows')).statements =
      (ofRows rows ++ (ofRows rows').moveDown rows.length).statements := by
    simp [ofRows, moveDown, statements_append, List.zipIdx_append, hmoved]
  exact congrArg Script.mk hstatements

theorem parse_append_of_ok (h : Text.IsWholeLines a.toList) (ha : parse a = .ok first)
    (hb : parse b = .ok second) :
    parse (a ++ b) = .ok (first ++ second.moveDown first.size) := by
  obtain ⟨rows, hrows, rfl⟩ := parse_eq_ok_iff.1 ha
  obtain ⟨rows', hrows', rfl⟩ := parse_eq_ok_iff.1 hb
  refine parse_eq_ok_iff.2 ⟨rows ++ rows', ?_, by rw [ofRows_append, size_ofRows]⟩
  rw [String.toList_append, Text.lines_append h, mapM_eq_ok_iff]
  exact List.rel_append (mapM_eq_ok_iff.1 hrows) (mapM_eq_ok_iff.1 hrows')

theorem parse_append_of_first_error (h : Text.IsWholeLines a.toList) (ha : parse a = .error error) :
    parse (a ++ b) = .error error := by
  obtain ⟨before, line, after, word, hlines, hrest⟩ := parse_eq_error_iff.1 ha
  refine parse_eq_error_iff.2 ⟨before, line, after ++ Text.lines b.toList, word, ?_, hrest⟩
  rw [String.toList_append, Text.lines_append h, hlines, List.append_assoc, List.cons_append]

theorem parse_append_of_second_error (h : Text.IsWholeLines a.toList) (ha : parse a = .ok first)
    (hb : parse b = .error error) : parse (a ++ b) = .error (error.moveDown first.size) := by
  obtain ⟨rows, hrows, rfl⟩ := parse_eq_ok_iff.1 ha
  have hfirst : ∀ line ∈ Text.lines a.toList, ∃ tokens, tokenize line = .ok tokens :=
    exists_mapM_iff.1 ⟨rows, hrows⟩
  have hsize : (ofRows rows).size = (Text.lines a.toList).length := by
    rw [size_ofRows, (mapM_eq_ok_iff.1 hrows).length_eq]
  obtain ⟨before, line, after, word, hlines, hbefore, hline, rfl⟩ := parse_eq_error_iff.1 hb
  refine parse_eq_error_iff.2
    ⟨Text.lines a.toList ++ before, line, after, word, ?_, ?_, hline, ?_⟩
  · rw [String.toList_append, Text.lines_append h, hlines, List.append_assoc]
  · exact List.forall_mem_append.2 ⟨hfirst, hbefore⟩
  · rw [ParseError.moveDown, hsize, List.length_append]
    simp only [ParseError.mk.injEq, and_true]
    omega

/-- Reading respects concatenation: let the first of two texts be empty or end with a line feed.
Together they are a script exactly if both are scripts, and then it consists of the statements of
the first and, further down by their number, of those of the second. An error in the first text is
the error of both together. If only the second text has an error, it is that error, further down by
the number of statements of the first. -/
theorem parse_concatenation (a b : String) (h : Text.IsWholeLines a.toList) :
    ((∃ script, parse (a ++ b) = .ok script) ↔
      (∃ first, parse a = .ok first) ∧ ∃ second, parse b = .ok second) ∧
    (∀ first second, parse a = .ok first → parse b = .ok second →
      parse (a ++ b) = .ok (first ++ second.moveDown first.size)) ∧
    (∀ error, parse a = .error error → parse (a ++ b) = .error error) ∧
    ∀ first error, parse a = .ok first → parse b = .error error →
      parse (a ++ b) = .error (error.moveDown first.size) := by
  refine ⟨⟨fun ⟨script, hscript⟩ => ?_, fun ⟨⟨first, ha⟩, second, hb⟩ => ?_⟩,
    fun _ _ => parse_append_of_ok h, fun _ => parse_append_of_first_error h,
    fun _ _ => parse_append_of_second_error h⟩
  · cases ha : parse a with
    | error error => cases hscript.symm.trans (parse_append_of_first_error h ha)
    | ok first =>
      cases hb : parse b with
      | error error => cases hscript.symm.trans (parse_append_of_second_error h ha hb)
      | ok second => exact ⟨⟨first, rfl⟩, second, rfl⟩
  · exact ⟨_, parse_append_of_ok h ha hb⟩

/-- An empty line at the end of the first text, and an error on the second line of the other. -/
theorem blankThenError_parse_concatenation :
    Text.IsWholeLines "5 0 3\r\n\n".toList ∧
      parse ("5 0 3\r\n\n" ++ "6\n7 x") = .error ⟨4, "x"⟩ ∧
      parse ("5 0 3\r\n\n" ++ "6\n7") = .ok ⟨#[⟨1, [5, 0, 3]⟩, ⟨2, []⟩, ⟨3, [6]⟩, ⟨4, [7]⟩]⟩ := by
  have h : Text.IsWholeLines "5 0 3\r\n\n".toList := .inr ⟨"5 0 3\r\n".toList, by decide +kernel⟩
  have hfirst : parse "5 0 3\r\n\n" = .ok ⟨#[⟨1, [5, 0, 3]⟩, ⟨2, []⟩]⟩ := by decide +kernel
  have herror : parse "6\n7 x" = .error ⟨2, "x"⟩ := by decide +kernel
  have hsecond : parse "6\n7" = .ok ⟨#[⟨1, [6]⟩, ⟨2, [7]⟩]⟩ := by decide +kernel
  refine ⟨h, (parse_concatenation _ _ h).2.2.2 _ _ hfirst herror, ?_⟩
  rw [(parse_concatenation _ _ h).2.1 _ _ hfirst hsecond]
  decide +kernel

end Script

end IntScript
