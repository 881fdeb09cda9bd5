import IntScript.Proofs.DecodeFault
import IntScript.Proofs.Encoding
import IntScript.Proofs.Report
import Mathlib.Data.List.Forall2

/-!
# Listings find every malformed statement

The listing of a script decodes the statements one by one, whereas a run decodes only those it comes
to. A run can fail to decode only on a line that the listing reports, so that a script with a clean
listing never fails to decode.

Neither a mnemonic form nor an error message contains a line feed. The lines of the listing are
therefore the lines of the statements, one for each.
-/

namespace IntScript

/-! ## Mnemonic forms and messages -/

theorem Opcode.singleLine_mnemonic (op : Opcode) : SingleLine op.mnemonic := by
  cases op <;> simp [SingleLine, Opcode.mnemonic]

theorem Arity.singleLine_description (arity : Arity) : SingleLine arity.description := by
  cases arity with
  | exactly n => exact .toString_nat n
  | atLeast n =>
    simp only [Arity.description, SingleLine.append_iff, SingleLine.toString_nat, and_true]
    simp [SingleLine]

theorem DecodeError.singleLine_message (error : DecodeError) : SingleLine error.message := by
  unfold DecodeError.message
  cases error with
  | unknownCode code =>
    simp only [SingleLine.append_iff, SingleLine.decimal, and_true]
    simp [SingleLine]
  | unknownSelector op selector =>
    simp only [SingleLine.append_iff, SingleLine.decimal, op.singleLine_mnemonic, and_true]
    simp [SingleLine]
  | argumentCount op expected got =>
    simp only [SingleLine.append_iff, SingleLine.toString_nat, op.singleLine_mnemonic,
      expected.singleLine_description, and_true]
    simp [SingleLine]

theorem singleLine_slotListing (addr : Int64) : SingleLine (slotListing addr) := by
  simp only [slotListing, SingleLine.append_iff, SingleLine.decimal, and_true]
  simp [SingleLine]

theorem singleLine_bracketed (values : List Int64) : SingleLine (bracketed values) := by
  have hblank : SingleLine " " := by simp [SingleLine]
  simp only [bracketed, SingleLine.append_iff, hblank.decimals, and_true]
  simp [SingleLine]

theorem Object.singleLine_listing (object : Object) : SingleLine object.listing := by
  cases object with
  | int value => exact .decimal value
  | array values => exact singleLine_bracketed values

theorem Operand.singleLine_listing {α : Type} {write : α → String}
    (h : ∀ value, SingleLine (write value)) (operand : Operand α) :
    SingleLine (operand.listing write) := by
  cases operand with
  | literal value => exact h value
  | slot addr => exact singleLine_slotListing addr

namespace Instruction

theorem singleLine_operands (i : Instruction) : ∀ text ∈ i.operands, SingleLine text := by
  cases i with
  | declareLocal addr source | set addr source =>
    simp [operands, singleLine_slotListing, source.singleLine_listing Object.singleLine_listing]
  | declareLabel label | gotoLabel label => simp [operands]
  | returnFromLabel | noOp => simp [operands]
  | exit value | sleep value => simp [operands, value.singleLine_listing SingleLine.decimal]
  | print source | printString source =>
    simp [operands, source.singleLine_listing Object.singleLine_listing]
  | accessIndex index dest array =>
    simp only [operands, List.forall_mem_cons, index.singleLine_listing SingleLine.decimal,
      array.singleLine_listing singleLine_bracketed, singleLine_slotListing]
    simp [SingleLine]
  | ifJump condition label jump =>
    simp only [operands, List.forall_mem_cons, condition.singleLine_listing SingleLine.decimal,
      SingleLine.decimal]
    cases jump <;> simp [SingleLine, Jump.listing]
  | input dest format =>
    simp only [operands, List.forall_mem_cons, singleLine_slotListing]
    cases format <;> simp [SingleLine, InputFormat.listing]

theorem singleLine_listing (i : Instruction) : SingleLine i.listing := by
  refine SingleLine.intercalate (by simp [SingleLine]) fun text ht => ?_
  obtain rfl | ht := List.mem_cons.1 ht
  · exact i.opcode.singleLine_mnemonic
  · exact i.singleLine_operands text ht

end Instruction

/-! ## Listed statements -/

namespace CommandLine

theorem singleLine_lineNumber (line : Nat) : SingleLine (lineNumber line) := by
  have hpadding : SingleLine ("".pushn ' ' (4 - (toString line).length)) :=
    SingleLine.pushn (by simp [SingleLine]) (by decide) _
  exact SingleLine.append_iff.2 ⟨hpadding, .toString_nat line⟩

/-- The line shows the instruction that the statement decodes to. -/
def Listed (statement : Statement) (line : List Char) : Prop :=
  ∃ i, Instruction.decode statement.tokens = .ok (some i) ∧
    line = (lineNumber statement.line ++ ": " ++ i.listing).toList

/-- The statement has tokens and decodes. -/
def isDecodable (statement : Statement) : Bool :=
  !statement.isEmpty && (Instruction.decode statement.tokens).isOk

theorem singleLine_of_listingLine? {statement : Statement} {line : String}
    (h : listingLine? statement = some line) : SingleLine line := by
  unfold listingLine? at h
  split at h
  next i _ =>
    obtain rfl := Option.some.inj h
    simp only [SingleLine.append_iff, singleLine_lineNumber, i.singleLine_listing, and_true]
    simp [SingleLine]
  next => cases h

theorem singleLine_of_errorLine? {statement : Statement} {line : String}
    (h : errorLine? statement = some line) : SingleLine line := by
  unfold errorLine? at h
  split at h
  next error _ =>
    obtain rfl := Option.some.inj h
    simp only [SingleLine.append_iff, SingleLine.toString_nat, error.singleLine_message, and_true]
    simp [SingleLine]
  next => cases h

/-- A statement is left out of the listing exactly if it is empty or malformed. -/
theorem listingLine?_cases (statement : Statement) :
    (isDecodable statement = false ∧ listingLine? statement = none) ∨
      ∃ line, isDecodable statement = true ∧ listingLine? statement = some line ∧
        Listed statement line.toList := by
  cases hd : Instruction.decode statement.tokens with
  | error error =>
    exact .inl (by simp [isDecodable, listingLine?, hd, Except.isOk, Except.toBool])
  | ok i? =>
    cases i? with
    | none =>
      have hempty := Instruction.decode_eq_ok_none_iff.1 hd
      exact .inl ⟨by simp [isDecodable, Statement.isEmpty, hempty], by simp [listingLine?, hd]⟩
    | some i =>
      have hne : statement.tokens ≠ [] := by
        intro hempty
        cases (Instruction.decode_eq_ok_none_iff.2 hempty).symm.trans hd
      refine .inr ⟨_, ?_, by simp [listingLine?, hd], i, hd, rfl⟩
      simp [isDecodable, Statement.isEmpty, hne, hd, Except.isOk, Except.toBool]

theorem forall₂_listed (statements : List Statement) :
    List.Forall₂ Listed (statements.filter isDecodable)
      ((statements.filterMap listingLine?).map String.toList) := by
  induction statements with
  | nil => exact .nil
  | cons statement statements ih =>
    obtain ⟨hdecodable, hline⟩ | ⟨line, hdecodable, hline, hlisted⟩ := listingLine?_cases statement
    · simpa [hdecodable, hline] using ih
    · simpa [hdecodable, hline] using ⟨hlisted, by simpa using ih⟩

theorem lines_stdout_listReport (script : Script) :
    Text.lines (listReport script).stdout.toList =
      (script.statements.toList.filterMap listingLine?).map String.toList := by
  refine lines_textOfLines fun line hline => ?_
  obtain ⟨statement, -, hline⟩ := List.mem_filterMap.1 hline
  exact singleLine_of_listingLine? hline

theorem lines_stderr_listReport (script : Script) :
    Text.lines (listReport script).stderr.toList =
      (script.statements.toList.filterMap errorLine?).map String.toList := by
  refine lines_textOfLines fun line hline => ?_
  obtain ⟨statement, -, hline⟩ := List.mem_filterMap.1 hline
  exact singleLine_of_errorLine? hline

theorem errorLine?_eq_none_iff {statement : Statement} :
    errorLine? statement = none ↔ (Instruction.decode statement.tokens).isOk = true := by
  cases hd : Instruction.decode statement.tokens <;>
    simp [errorLine?, hd, Except.isOk, Except.toBool]

theorem code_listReport_eq_zero_iff {script : Script} :
    (listReport script).code = 0 ↔
      ∀ statement ∈ script.statements, (Instruction.decode statement.tokens).isOk = true := by
  simp [listReport, errorLine?_eq_none_iff]

/-- A malformed statement has its line among the errors. -/
theorem errorLine_mem_listReport {script : Script} {line : Nat} {tokens : List Int64}
    {error : DecodeError} (hs : ⟨line, tokens⟩ ∈ script.statements)
    (hd : Instruction.decode tokens = .error error) :
    (listReport script).code = 1 ∧
      ("error: line " ++ toString line ++ ": " ++ error.message).toList ∈
        Text.lines (listReport script).stderr.toList := by
  have hline : errorLine? ⟨line, tokens⟩ =
      some ("error: line " ++ toString line ++ ": " ++ error.message) := by
    simp [errorLine?, hd]
  have hmem := List.mem_filterMap.2 ⟨_, Array.mem_toList_iff.2 hs, hline⟩
  refine ⟨?_, ?_⟩
  · have hne := List.ne_nil_of_mem hmem
    simpa [listReport] using hne
  · rw [lines_stderr_listReport]
    exact List.mem_map_of_mem hmem

theorem report_list_of_hasText (fuel : Nat) {directory : Directory} {path text : String}
    (stdin : List UInt8) (h : directory.HasText path text) :
    (Command.list path).report fuel directory stdin =
      some (match Script.parse text with
        | .error error => .failure ("error: " ++ error.message)
        | .ok script => listReport script) := by
  rw [Command.report, listFileReport, loadScript_of_hasText h]
  cases Script.parse text <;> rfl

/-- The listing of a script file reports every statement that a run may fail to decode.

The exit code is zero exactly if the text is a script and all of its statements decode. Then no run
of the script fails to decode, on whatever machine, host and settings. If some run of the script
does fail to decode, its fault is reported under the number of its line, and the exit code is one.
The listing itself has one line for each statement that has tokens and decodes, in their order. -/
theorem listing_decides_decoding (fuel : Nat) {directory : Directory} {path text : String}
    (stdin : List UInt8) (h : directory.HasText path text) :
    ∃ report, (Command.list path).report fuel directory stdin = some report ∧
      (report.code = 0 ↔ ∃ script, Script.parse text = .ok script ∧
        ∀ statement ∈ script.statements, (Instruction.decode statement.tokens).isOk = true) ∧
      ∀ script, Script.parse text = .ok script →
        (report.code = 0 → ∀ (η : Type) [Host η] (config : Config) (fuel : Nat) (m m' : Machine η)
          (error : RuntimeError),
          Program.run { script, config } fuel m = (some (.failed error), m') →
          ∀ e, error.fault ≠ .decode e) ∧
        (∀ (η : Type) [Host η] (config : Config) (fuel : Nat) (m m' : Machine η) (line : Nat)
          (tokens : List Int64) (e : DecodeError),
          Program.run { script, config } fuel m = (some (.failed ⟨line, tokens, .decode e⟩), m') →
          report.code = 1 ∧ ("error: line " ++ toString line ++ ": " ++ e.message).toList ∈
            Text.lines report.stderr.toList) ∧
        List.Forall₂ Listed (script.statements.toList.filter isDecodable)
          (Text.lines report.stdout.toList) := by
  have hreport := report_list_of_hasText fuel stdin h
  cases hp : Script.parse text with
  | error error =>
    rw [hp] at hreport
    exact ⟨_, hreport, by simp [Report.failure], by simp⟩
  | ok script =>
    rw [hp] at hreport
    have hfails (η : Type) [Host η] (config : Config) (fuel : Nat) (m m' : Machine η) (line : Nat)
        (tokens : List Int64) (e : DecodeError)
        (hrun : Program.run { script, config } fuel m =
          (some (.failed ⟨line, tokens, .decode e⟩), m')) :
        (listReport script).code = 1 ∧
          ("error: line " ++ toString line ++ ": " ++ e.message).toList ∈
            Text.lines (listReport script).stderr.toList := by
      obtain ⟨hmem, hd⟩ := Program.decode_eq_error_of_run hrun
      exact errorLine_mem_listReport hmem hd
    refine ⟨listReport script, hreport, by simp [code_listReport_eq_zero_iff],
      fun other hother => ?_⟩
    obtain rfl := Except.ok.inj hother
    refine ⟨fun hcode η _ config fuel m m' error hrun e he => ?_, hfails, ?_⟩
    · obtain ⟨line, tokens, fault⟩ := error
      subst he
      have hone := (hfails η config fuel m m' line tokens e hrun).1
      omega
    · rw [lines_stdout_listReport]
      exact forall₂_listed script.statements.toList

/-- A directory with a script whose third line is malformed. -/
def malformedThird : Directory where
  files := [("a.ns", "8 0 7\n\n99\n5 0 0\n".toUTF8)]

theorem malformedThird_listing_decides_decoding :
    malformedThird.HasText "a.ns" "8 0 7\n\n99\n5 0 0\n" ∧
      ∃ report, (Command.list "a.ns").report 0 malformedThird [] = some report ∧
        report.code = 1 ∧
        "error: line 3: invalid operation code 99".toList ∈ Text.lines report.stderr.toList ∧
        (Text.lines report.stdout.toList).length = 2 := by
  have htext : malformedThird.HasText "a.ns" "8 0 7\n\n99\n5 0 0\n" :=
    Directory.hasText_of_read rfl
  have hparse : Script.parse "8 0 7\n\n99\n5 0 0\n" =
      .ok (.ofRows [[8, 0, 7], [], [99], [5, 0, 0]]) := by decide +kernel
  let program : Program := { script := .ofRows [[8, 0, 7], [], [99], [5, 0, 0]] }
  let m : Machine MemoryHost := { host := {} }
  have hrun : program.run 3 m =
    (some (.failed ⟨3, [99], .decode (.unknownCode 99)⟩), (program.run 3 m).2) := rfl
  obtain ⟨report, hreport, -, hscript⟩ := listing_decides_decoding 0 [] htext
  obtain ⟨-, hfails, hlisted⟩ := hscript _ hparse
  obtain ⟨hcode, hline⟩ := hfails MemoryHost {} 3 m _ 3 [99] (.unknownCode 99) hrun
  refine ⟨htext, report, hreport, hcode, ?_, hlisted.length_eq.symm.trans (by decide +kernel)⟩
  have hmessage : "error: line " ++ toString 3 ++ ": " ++ (DecodeError.unknownCode 99).message =
    "error: line 3: invalid operation code 99" := by decide +kernel
  rwa [hmessage] at hline

end CommandLine

end IntScript
