import IntScript.Proofs.Listing

/-!
# Listings can be read in one way only

The parts of a line in a listing are written one behind the other with a blank after each, and an
array has blanks inside. All the same no two instructions have the same mnemonic form: from left to
right, each part shows where it ends. A word ends at the first blank, an array at the first closing
bracket, and the first character tells the kinds of parts from each other.

A listing therefore shows all of a script that is not blank: numbers of lines and tokens.
-/

namespace IntScript

/-! ## Parts of a line -/

/-- The first occurrence of a character is where a text is cut. -/
theorem eq_of_append_cons_eq {c : Char} {xs ys r r' : List Char} (hx : c ∉ xs) (hy : c ∉ ys)
    (h : xs ++ c :: r = ys ++ c :: r') : xs = ys ∧ r = r' := by
  induction xs generalizing ys with
  | nil =>
    cases ys with
    | nil => exact ⟨rfl, (List.cons.inj h).2⟩
    | cons y ys => exact absurd (List.cons.inj h).1 (List.ne_of_not_mem_cons hy)
  | cons x xs ih =>
    cases ys with
    | nil => exact absurd (List.cons.inj h).1.symm (List.ne_of_not_mem_cons hx)
    | cons y ys =>
      obtain ⟨rfl, htail⟩ := List.cons.inj h
      obtain ⟨rfl, hr⟩ :=
        ih (List.not_mem_of_not_mem_cons hx) (List.not_mem_of_not_mem_cons hy) htail
      exact ⟨rfl, hr⟩

/-- What is written can be told from what follows behind a blank. -/
def SelfDelimiting {α : Type} (write : α → String) : Prop :=
  ∀ ⦃x y : α⦄ ⦃r r' : List Char⦄,
    (write x).toList ++ ' ' :: r = (write y).toList ++ ' ' :: r' → x = y ∧ r = r'

/-- Words that contain no blank end at the first one. -/
theorem SelfDelimiting.of_injective {α : Type} {write : α → String}
    (hinj : Function.Injective write) (hblank : ∀ x, ' ' ∉ (write x).toList) :
    SelfDelimiting write := by
  intro x y r r' h
  obtain ⟨hxy, hr⟩ := eq_of_append_cons_eq (hblank x) (hblank y) h
  exact ⟨hinj (String.toList_inj.1 hxy), hr⟩

namespace Text

theorem decimal_injective : Function.Injective decimal := by
  intro m n h
  have hdigits : digits m.toInt = digits n.toInt := by
    rw [← toList_decimal, ← toList_decimal, h]
  have hread := congrArg numeral? hdigits
  rw [numeral?_digits, numeral?_digits] at hread
  exact Option.some.inj hread

theorem selfDelimiting_decimal : SelfDelimiting decimal := by
  refine .of_injective decimal_injective fun n => ?_
  rw [toList_decimal]
  exact notMem_digits (by decide) (by decide) n.toInt

/-- A numeral begins with a sign or a digit. -/
theorem decimal_append_ne_cons {c : Char} (hsign : c ≠ '-') (hdigit : c.isDigit = false)
    (n : Int64) (r r' : List Char) : (decimal n).toList ++ r ≠ c :: r' := by
  intro h
  have hc : c ∈ digits n.toInt := by
    rw [toList_decimal] at h
    cases hd : digits n.toInt with
    | nil => exact absurd hd (isWord_digits n.toInt).1
    | cons first rest =>
      rw [hd, List.cons_append] at h
      rw [← (List.cons.inj h).1]
      exact List.mem_cons_self
  exact notMem_digits hsign hdigit n.toInt hc

theorem decimals_injective : Function.Injective (decimals " ") := by
  intro ms ns h
  have hwords := words_decimals ms
  rw [h, words_decimals] at hwords
  refine List.map_injective_iff.2 ?_ hwords.symm
  intro m n hmn
  exact decimal_injective (String.toList_inj.1 (by simpa using hmn))

end Text

theorem toList_slotListing (addr : Int64) :
    (slotListing addr).toList = '@' :: (Text.decimal addr).toList := by
  simp [slotListing]

theorem toList_bracketed (values : List Int64) :
    (bracketed values).toList = '[' :: ((Text.decimals " " values).toList ++ [']']) := by
  simp [bracketed]

theorem selfDelimiting_slotListing : SelfDelimiting slotListing := by
  refine .of_injective (fun a b h => ?_) fun a => ?_
  · exact Text.decimal_injective (String.append_right_inj "@" |>.1 h)
  · simpa [toList_slotListing] using Text.notMem_digits (by decide) (by decide) a.toInt

theorem selfDelimiting_bracketed : SelfDelimiting bracketed := by
  intro xs ys r r' h
  have hclosing (zs : List Int64) : ']' ∉ (Text.decimals " " zs).toList :=
    Text.notMem_decimals (by decide) (by decide) (by decide) zs
  rw [toList_bracketed, toList_bracketed, List.cons_append, List.cons_append, List.append_assoc,
    List.append_assoc] at h
  obtain ⟨hxy, hr⟩ := eq_of_append_cons_eq (hclosing xs) (hclosing ys) (List.cons.inj h).2
  exact ⟨Text.decimals_injective (String.toList_inj.1 hxy), (List.cons.inj hr).2⟩

/-- An integer is told from an array by its first character. -/
theorem decimal_append_ne_bracketed (value : Int64) (values : List Int64) (r r' : List Char) :
    (Text.decimal value).toList ++ r ≠ (bracketed values).toList ++ r' := by
  rw [toList_bracketed, List.cons_append]
  exact Text.decimal_append_ne_cons (by decide) (by decide) value r _

theorem Object.selfDelimiting_listing : SelfDelimiting Object.listing := by
  intro x y r r' h
  cases x with
  | int value =>
    cases y with
    | int value' =>
      obtain ⟨rfl, hr⟩ := Text.selfDelimiting_decimal h
      exact ⟨rfl, hr⟩
    | array values => exact absurd h (decimal_append_ne_bracketed value values _ _)
  | array values =>
    cases y with
    | int value => exact absurd h.symm (decimal_append_ne_bracketed value values _ _)
    | array values' =>
      obtain ⟨rfl, hr⟩ := selfDelimiting_bracketed h
      exact ⟨rfl, hr⟩

theorem decimal_append_ne_slotListing (value addr : Int64) (r r' : List Char) :
    (Text.decimal value).toList ++ r ≠ (slotListing addr).toList ++ r' := by
  rw [toList_slotListing, List.cons_append]
  exact Text.decimal_append_ne_cons (by decide) (by decide) value r _

theorem bracketed_append_ne_slotListing (values : List Int64) (addr : Int64) (r r' : List Char) :
    (bracketed values).toList ++ r ≠ (slotListing addr).toList ++ r' := by
  simp [toList_bracketed, toList_slotListing]

theorem Object.listing_append_ne_slotListing (object : Object) (addr : Int64) (r r' : List Char) :
    object.listing.toList ++ r ≠ (slotListing addr).toList ++ r' := by
  cases object with
  | int value => exact decimal_append_ne_slotListing value addr r r'
  | array values => exact bracketed_append_ne_slotListing values addr r r'

theorem Operand.selfDelimiting_listing {α : Type} {write : α → String} (h : SelfDelimiting write)
    (hslot : ∀ value addr r r', (write value).toList ++ r ≠ (slotListing addr).toList ++ r') :
    SelfDelimiting (Operand.listing write) := by
  intro x y r r' hxy
  cases x with
  | literal value =>
    cases y with
    | literal value' =>
      obtain ⟨rfl, hr⟩ := h hxy
      exact ⟨rfl, hr⟩
    | slot addr => exact absurd hxy (hslot value addr _ _)
  | slot addr =>
    cases y with
    | literal value => exact absurd hxy.symm (hslot value addr _ _)
    | slot addr' =>
      obtain ⟨rfl, hr⟩ := selfDelimiting_slotListing hxy
      exact ⟨rfl, hr⟩

theorem Opcode.selfDelimiting_mnemonic : SelfDelimiting Opcode.mnemonic := by
  refine .of_injective (fun a b h => ?_) fun a => ?_
  · cases a <;> cases b <;> simp [mnemonic] at h ⊢
  · cases a <;> simp [mnemonic]

theorem Jump.selfDelimiting_listing : SelfDelimiting Jump.listing := by
  refine .of_injective (fun a b h => ?_) fun a => ?_
  · cases a <;> cases b <;> simp [listing] at h ⊢
  · cases a <;> simp [listing]

theorem InputFormat.selfDelimiting_listing : SelfDelimiting InputFormat.listing := by
  refine .of_injective (fun a b h => ?_) fun a => ?_
  · cases a <;> cases b <;> simp [listing] at h ⊢
  · cases a <;> simp [listing]

/-! ## Instructions -/

/-- Texts with a blank behind each. -/
def spaced (texts : List String) : List Char :=
  texts.flatMap fun text => text.toList ++ [' ']

theorem spaced_cons (text : String) (texts : List String) :
    spaced (text :: texts) = text.toList ++ ' ' :: spaced texts := by
  simp [spaced]

theorem toList_intercalate_append (text : String) (texts : List String) :
    (" ".intercalate (text :: texts)).toList ++ [' '] = spaced (text :: texts) := by
  induction texts generalizing text with
  | nil => simp [spaced]
  | cons next texts ih =>
    rw [String.intercalate_cons_cons, spaced_cons, ← ih next]
    simp

namespace Instruction

theorem eq_of_spaced_operands {i j : Instruction} (hop : i.opcode = j.opcode)
    (h : spaced i.operands = spaced j.operands) : i = j := by
  have hobject : SelfDelimiting (Operand.listing Object.listing) :=
    Operand.selfDelimiting_listing Object.selfDelimiting_listing
      Object.listing_append_ne_slotListing
  have hint : SelfDelimiting (Operand.listing Text.decimal) :=
    Operand.selfDelimiting_listing Text.selfDelimiting_decimal decimal_append_ne_slotListing
  have harray : SelfDelimiting (Operand.listing bracketed) :=
    Operand.selfDelimiting_listing selfDelimiting_bracketed bracketed_append_ne_slotListing
  -- Only pairs of instructions with the same operation are left.
  cases i <;> cases j <;> cases hop <;> simp only [operands, spaced_cons] at h
  case declareLocal.declareLocal | set.set =>
    obtain ⟨rfl, hsource⟩ := selfDelimiting_slotListing h
    obtain ⟨rfl, -⟩ := hobject hsource
    rfl
  case declareLabel.declareLabel | gotoLabel.gotoLabel =>
    obtain ⟨rfl, -⟩ := Text.selfDelimiting_decimal h
    rfl
  case returnFromLabel.returnFromLabel | noOp.noOp => rfl
  case exit.exit | sleep.sleep =>
    obtain ⟨rfl, -⟩ := hint h
    rfl
  case print.print | printString.printString =>
    obtain ⟨rfl, -⟩ := hobject h
    rfl
  case accessIndex.accessIndex =>
    obtain ⟨rfl, hindex⟩ := harray h
    obtain ⟨rfl, harrow⟩ := hint hindex
    obtain ⟨rfl, -⟩ := selfDelimiting_slotListing (List.cons.inj (List.append_cancel_left harrow)).2
    rfl
  case ifJump.ifJump =>
    obtain ⟨rfl, hjump⟩ := hint h
    obtain ⟨rfl, hlabel⟩ := Jump.selfDelimiting_listing hjump
    obtain ⟨rfl, -⟩ := Text.selfDelimiting_decimal hlabel
    rfl
  case input.input =>
    obtain ⟨rfl, harrow⟩ := InputFormat.selfDelimiting_listing h
    obtain ⟨rfl, -⟩ := selfDelimiting_slotListing (List.cons.inj (List.append_cancel_left harrow)).2
    rfl

/-- Different instructions have different mnemonic forms. -/
theorem listing_injective : Function.Injective Instruction.listing := by
  intro i j h
  have hspaced : spaced (i.opcode.mnemonic :: i.operands) =
      spaced (j.opcode.mnemonic :: j.operands) := by
    rw [← toList_intercalate_append, ← toList_intercalate_append]
    exact congrArg (fun text : String => text.toList ++ [' ']) h
  rw [spaced_cons, spaced_cons] at hspaced
  obtain ⟨hop, hoperands⟩ := Opcode.selfDelimiting_mnemonic hspaced
  exact eq_of_spaced_operands hop hoperands

end Instruction

/-! ## Listings -/

namespace CommandLine

theorem toList_lineNumber (line : Nat) :
    (lineNumber line).toList =
      List.replicate (4 - (toString line).length) ' ' ++ Nat.toDigits 10 line := by
  have hpad (n : Nat) : ("".pushn ' ' n).toList = List.replicate n ' ' := by
    rw [String.pushn_eq_repeat_push]
    induction n with
    | zero => rfl
    | succ n ih => simp [Nat.repeat, ih, List.replicate_succ']
  simp [lineNumber, hpad, Nat.toString_eq_repr]

theorem lineNumber_injective : Function.Injective lineNumber := by
  intro m n h
  have hfilter (line : Nat) :
      (lineNumber line).toList.filter (· != ' ') = Nat.toDigits 10 line := by
    have hdigits : (Nat.toDigits 10 line).filter (· != ' ') = Nat.toDigits 10 line := by
      refine List.filter_eq_self.2 fun c hc => ?_
      simpa using ne_of_mem_of_not_mem hc
        (Text.notMem_digits (by decide) (by decide) (.ofNat line))
    simp [toList_lineNumber, hdigits]
  have hread := Text.natural?_toDigits m
  rw [← hfilter m, h, hfilter n, Text.natural?_toDigits n] at hread
  exact (Option.some.inj hread).symm

theorem colon_notMem_lineNumber (line : Nat) : ':' ∉ (lineNumber line).toList := by
  rw [toList_lineNumber, List.mem_append, not_or]
  exact ⟨by simp [List.mem_replicate], Text.notMem_digits (by decide) (by decide) (.ofNat line)⟩

/-- A line shows one statement only. -/
theorem leftUnique_listed : Relator.LeftUnique Listed := by
  intro statement statement' line hlisted hlisted'
  obtain ⟨i, hi, hline⟩ := hlisted
  obtain ⟨j, hj, hline'⟩ := hlisted'
  have hparts (number : Nat) (text : String) : (lineNumber number ++ ": " ++ text).toList =
      (lineNumber number).toList ++ ':' :: ' ' :: text.toList := by simp
  rw [hline, hparts, hparts] at hline'
  obtain ⟨hnumber, hlisting⟩ := eq_of_append_cons_eq (colon_notMem_lineNumber statement.line)
    (colon_notMem_lineNumber statement'.line) hline'
  have hij : i = j :=
    Instruction.listing_injective (String.toList_inj.1 (List.cons.inj hlisting).2)
  have htokens : statement.tokens = statement'.tokens := by
    rw [Instruction.eq_encode_of_decode hi, Instruction.eq_encode_of_decode hj, hij]
  have hnumbers : statement.line = statement'.line :=
    lineNumber_injective (String.toList_inj.1 hnumber)
  cases statement
  cases statement'
  simp_all only

/-- The statements that a listing shows are those of every script with the same listing. -/
theorem filter_isDecodable_eq_of_stdout {script script' : Script}
    (h : (listReport script).stdout = (listReport script').stdout) :
    script.statements.toList.filter isDecodable = script'.statements.toList.filter isDecodable := by
  have hlisted := forall₂_listed script.statements.toList
  have hlisted' := forall₂_listed script'.statements.toList
  rw [← lines_stdout_listReport] at hlisted hlisted'
  rw [h] at hlisted
  exact List.left_unique_forall₂' leftUnique_listed hlisted hlisted'

theorem filter_isDecodable_of_code {script : Script} (h : (listReport script).code = 0) :
    script.statements.toList.filter isDecodable =
      script.statements.toList.filter fun statement => !statement.isEmpty := by
  refine List.filter_congr fun statement hmem => ?_
  have hok := code_listReport_eq_zero_iff.1 h statement (Array.mem_toList_iff.1 hmem)
  simp [isDecodable, hok]

theorem exists_script_of_code {fuel : Nat} {directory : Directory} {path text : String}
    {stdin : List UInt8} {report : Report} (h : directory.HasText path text)
    (hreport : (Command.list path).report fuel directory stdin = some report)
    (hcode : report.code = 0) :
    ∃ script, Script.parse text = .ok script ∧ report = listReport script := by
  rw [report_list_of_hasText fuel stdin h] at hreport
  obtain rfl := Option.some.inj hreport
  cases hparse : Script.parse text with
  | error error => simp [hparse, Report.failure] at hcode
  | ok script => exact ⟨script, rfl, rfl⟩

/-- A listing shows everything but blank lines and layout.

Instructions with the same mnemonic form are the same. Two texts that are listed without errors have
the same listing only if they are scripts with the same statements, on the same lines, apart from
empty ones. -/
theorem listings_are_lossless :
    (∀ i j : Instruction, i.listing = j.listing → i = j) ∧
      ∀ (fuel fuel' : Nat) (directory directory' : Directory) (path path' text text' : String)
        (stdin stdin' : List UInt8) (report report' : Report),
        directory.HasText path text → directory'.HasText path' text' →
        (Command.list path).report fuel directory stdin = some report →
        (Command.list path').report fuel' directory' stdin' = some report' →
        report.code = 0 → report'.code = 0 → report.stdout = report'.stdout →
        ∃ script script', Script.parse text = .ok script ∧ Script.parse text' = .ok script' ∧
          (script.statements.toList.filter fun statement => !statement.isEmpty) =
            script'.statements.toList.filter fun statement => !statement.isEmpty := by
  refine ⟨fun i j h => Instruction.listing_injective h, ?_⟩
  intro fuel fuel' directory directory' path path' text text' stdin stdin' report report' htext
    htext' hreport hreport' hcode hcode' hstdout
  obtain ⟨script, hparse, rfl⟩ := exists_script_of_code htext hreport hcode
  obtain ⟨script', hparse', rfl⟩ := exists_script_of_code htext' hreport' hcode'
  refine ⟨script, script', hparse, hparse', ?_⟩
  rw [← filter_isDecodable_of_code hcode, ← filter_isDecodable_of_code hcode',
    filter_isDecodable_eq_of_stdout hstdout]

/-- Two layouts of one script, with comments, blanks and signs in different places. -/
def twoLayouts : Directory where
  files := [("a.ns", "8 1 -7 10 ; print\n\n5 0 0\n".toUTF8),
    ("b.ns", "08 1\t-7 +10\n; end\n5 0 0".toUTF8)]

theorem twoLayouts_listings_are_lossless :
    ∃ report, (Command.list "a.ns").report 0 twoLayouts [] = some report ∧
      (Command.list "b.ns").report 0 twoLayouts [] = some report ∧ report.code = 0 ∧
      report.stdout = "   1: PRINT [-7 10]\n   3: EXIT 0\n" ∧
      ∃ script script', Script.parse "8 1 -7 10 ; print\n\n5 0 0\n" = .ok script ∧
        Script.parse "08 1\t-7 +10\n; end\n5 0 0" = .ok script' ∧
        (script.statements.toList.filter fun statement => !statement.isEmpty) =
          script'.statements.toList.filter fun statement => !statement.isEmpty := by
  have htext : twoLayouts.HasText "a.ns" "8 1 -7 10 ; print\n\n5 0 0\n" :=
    Directory.hasText_of_read rfl
  have htext' : twoLayouts.HasText "b.ns" "08 1\t-7 +10\n; end\n5 0 0" :=
    Directory.hasText_of_read rfl
  let report : Report := { stdout := "   1: PRINT [-7 10]\n   3: EXIT 0\n" }
  have hreport : (Command.list "a.ns").report 0 twoLayouts [] = some report := by decide +kernel
  have hreport' : (Command.list "b.ns").report 0 twoLayouts [] = some report := by decide +kernel
  exact ⟨report, hreport, hreport', rfl, rfl, listings_are_lossless.2 0 0 _ _ _ _ _ _ [] [] _ _
    htext htext' hreport hreport' rfl rfl rfl⟩

end CommandLine

end IntScript
