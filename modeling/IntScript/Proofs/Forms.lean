import IntScript.Proofs.Encoding
import Mathlib.Data.List.Basic
import Mathlib.Order.Bounds.Basic
import Mathlib.Tactic.IntervalCases

/-!
# Statements that do not decode

Each operation has a table of its forms: the selectors it knows, each with the number of arguments
that the selector calls for. Decoding goes by this table alone. A statement decodes if its selector
stands in the table with a number that admits the arguments, and each error says what the table says
about the statement. What is expected of a statement is therefore what other statements of the same
operation and selector fulfil, and a statement that is refused for its length could not have been
saved by other operands.
-/

namespace IntScript

/-! ## Argument counts -/

namespace Arity

/-- A form with this arity takes `count` arguments. -/
def Admits : Arity → Nat → Prop
  | exactly n, count => count = n
  | atLeast n, count => n ≤ count

/-- The smallest number of arguments. -/
def least : Arity → Nat
  | exactly n | atLeast n => n

/-- Whether more arguments than the smallest number are taken as well. -/
def isOpen : Arity → Bool
  | exactly _ => false
  | atLeast _ => true

variable {arity : Arity}

theorem isLeast_admits (arity : Arity) : IsLeast {n | arity.Admits n} arity.least := by
  cases arity with
  | exactly n => exact ⟨rfl, fun m hm => Nat.le_of_eq hm.symm⟩
  | atLeast n => exact ⟨Nat.le_refl n, fun m hm => hm⟩

theorem isOpen_iff : arity.isOpen = true ↔ ∃ n, arity.Admits n ∧ arity.least < n := by
  cases arity with
  | exactly n =>
    refine iff_of_false Bool.false_ne_true ?_
    rintro ⟨m, rfl, hm⟩
    exact Nat.lt_irrefl _ hm
  | atLeast n => exact iff_of_true rfl ⟨n + 1, Nat.le_succ n, Nat.lt_succ_self n⟩

theorem setOf_admits_of_isOpen (h : arity.isOpen = true) :
    {n | arity.Admits n} = Set.Ici arity.least := by
  cases arity with
  | exactly n => cases h
  | atLeast n => rfl

theorem not_admits_iff {n : Nat} :
    ¬ arity.Admits n ↔ if arity.isOpen then n < arity.least else n ≠ arity.least := by
  cases arity with
  | exactly m => rfl
  | atLeast m => exact Nat.not_le

end Arity

/-! ## Forms -/

/-- What the arguments of an operation stand for. Operations with the same layout differ in what
they do, not in how they are written. -/
inductive Layout where
  | store | source | scalar | label | nothing | access | jump | input
  deriving DecidableEq, Repr

def Opcode.layout : Opcode → Layout
  | declareLocal | set => .store
  | declareLabel | gotoLabel => .label
  | returnFromLabel | noOp => .nothing
  | exit | sleep => .scalar
  | print | printString => .source
  | accessIndex => .access
  | ifJump => .jump
  | input => .input

namespace Layout

/-- Whether the first argument is a selector. -/
def hasSelector : Layout → Bool
  | label | nothing => false
  | _ => true

/-- The selector among the arguments. -/
def selector? (layout : Layout) (args : List Int64) : Option Int64 :=
  if layout.hasSelector then args.head? else none

/-- The selectors of a layout, each with the number of arguments it calls for. -/
def forms : Layout → List (Option Int64 × Arity)
  | store => [(some 0, .exactly 3), (some 1, .atLeast 2), (some 2, .exactly 3)]
  | source => [(some 0, .exactly 2), (some 1, .atLeast 1), (some 2, .exactly 2)]
  | scalar => [(some 0, .exactly 2), (some 1, .exactly 2)]
  | label => [(none, .exactly 1)]
  | nothing => [(none, .exactly 0)]
  | access =>
    [(some 0, .atLeast 3), (some 1, .atLeast 3), (some 2, .exactly 4), (some 3, .exactly 4)]
  | jump =>
    [(some 0, .exactly 3), (some 1, .exactly 3), (some 2, .exactly 3), (some 3, .exactly 3)]
  | input =>
    [(some 0, .exactly 2), (some 1, .exactly 2), (some 2, .exactly 2), (some 3, .exactly 2)]

/-- The number of arguments that a selector calls for. -/
def form? (layout : Layout) (selector : Option Int64) : Option Arity :=
  layout.forms.lookup selector

/-- The number of arguments under one selector or another. -/
def anyForm : Layout → Arity
  | store => .atLeast 2
  | source => .atLeast 1
  | label => .exactly 1
  | nothing => .exactly 0
  | access => .atLeast 3
  | jump => .exactly 3
  | scalar | input => .exactly 2

/-- The number of arguments to expect. A selector that is missing or unknown leaves all forms
open. -/
def expected (layout : Layout) (selector : Option Int64) : Arity :=
  (layout.form? selector).getD layout.anyForm

variable {layout : Layout}

theorem mem_forms_of_form? {selector : Option Int64} {arity : Arity}
    (h : layout.form? selector = some arity) : (selector, arity) ∈ layout.forms := by
  obtain ⟨before, after, hforms, -⟩ := List.lookup_eq_some_iff.1 h
  simp [hforms]

theorem anyForm_admits_iff {n : Nat} :
    layout.anyForm.Admits n ↔
      ∃ selector arity, layout.form? selector = some arity ∧ arity.Admits n := by
  constructor
  · intro h
    cases layout with
    | store | source => exact ⟨some 1, _, rfl, h⟩
    | label | nothing => exact ⟨none, _, rfl, h⟩
    | scalar | access | jump | input => exact ⟨some 0, _, rfl, h⟩
  · rintro ⟨selector, arity, hform, hn⟩
    have hmem := mem_forms_of_form? hform
    clear hform
    cases layout <;> simp only [forms, List.mem_cons, List.not_mem_nil, Prod.mk.injEq] at hmem <;>
      grind [anyForm, Arity.Admits]

/-- Where all selectors call for one number of arguments, this number is expected beside any
selector. -/
theorem expected_eq_anyForm (h : ∀ form ∈ layout.forms, form.2 = layout.anyForm)
    (selector : Option Int64) : layout.expected selector = layout.anyForm := by
  cases hform : layout.form? selector with
  | none => simp [expected, hform]
  | some arity => simpa [expected, hform] using h _ (mem_forms_of_form? hform)

/-- Every form can be filled in. -/
theorem exists_args {selector : Option Int64} {arity : Arity}
    (h : layout.form? selector = some arity) {n : Nat} (hn : arity.Admits n) :
    ∃ args, args.length = n ∧ layout.selector? args = selector := by
  have hmem := mem_forms_of_form? h
  clear h
  cases selector with
  | none =>
    have hsel : layout.hasSelector = false := by
      cases layout <;> simp_all [forms, hasSelector]
    exact ⟨List.replicate n 0, by simp, by simp [selector?, hsel]⟩
  | some selector =>
    have hsel : layout.hasSelector = true := by
      cases layout <;> simp_all [forms, hasSelector]
    have hpos : 0 < n := by
      cases layout <;> simp [forms] at hmem <;> grind [Arity.Admits]
    refine ⟨selector :: List.replicate (n - 1) 0, ?_, by simp [selector?, hsel]⟩
    simp only [List.length_cons, List.length_replicate]
    omega

end Layout

namespace Instruction

variable {op : Opcode} {args : List Int64} {α β : Type}

/-- The result of decoding the arguments of an operation is what the layout calls for. -/
inductive Conforms (layout : Layout) (op : Opcode) (args : List Int64) :
    Except DecodeError α → Prop where
  | ok {arity : Arity} (value : α) : layout.form? (layout.selector? args) = some arity →
      arity.Admits args.length → Conforms layout op args (.ok value)
  | selector {selector : Int64} : layout.selector? args = some selector →
      layout.form? (some selector) = none →
      Conforms layout op args (.error (.unknownSelector op selector))
  | count {arity : Arity} {got : Nat} : layout.expected (layout.selector? args) = arity →
      got = args.length → ¬ arity.Admits got →
      Conforms layout op args (.error (.argumentCount op arity got))

theorem Conforms.map {layout : Layout} {x : Except DecodeError α} (h : Conforms layout op args x)
    (f : α → β) : Conforms layout op args (x.map f) := by
  cases h with
  | ok value hform hn => exact .ok (f value) hform hn
  | selector hs hform => exact .selector hs hform
  | count harity hgot hn => exact .count harity hgot hn

theorem conforms_decodeStore (op : Opcode) (args : List Int64) :
    Conforms .store op args (decodeStore op args) := by
  fun_cases decodeStore op args with
  | case1 => exact .count rfl rfl (by simp [Arity.Admits])
  | case2 addr value => exact .ok _ rfl rfl
  | case3 args h => exact .count rfl rfl (by simpa [Arity.Admits, List.length_eq_two] using h)
  | case4 h addr values => exact .ok _ rfl (by simp [Arity.Admits])
  | case5 => exact .count rfl rfl (by simp [Arity.Admits])
  | case6 addr slot => exact .ok _ rfl rfl
  | case7 args h => exact .count rfl rfl (by simpa [Arity.Admits, List.length_eq_two] using h)
  | case8 selector args h0 h1 h2 =>
    exact .selector rfl (List.lookup_eq_none_iff.2 (by simp [Layout.forms, h0, h1, h2]))

theorem conforms_decodeSource (op : Opcode) (args : List Int64) :
    Conforms .source op args (decodeSource op args) := by
  fun_cases decodeSource op args with
  | case1 => exact .count rfl rfl (by simp [Arity.Admits])
  | case2 value => exact .ok _ rfl rfl
  | case3 args h => exact .count rfl rfl (by simpa [Arity.Admits, List.length_eq_one_iff] using h)
  | case4 args => exact .ok _ rfl (by simp [Arity.Admits])
  | case5 slot => exact .ok _ rfl rfl
  | case6 args h => exact .count rfl rfl (by simpa [Arity.Admits, List.length_eq_one_iff] using h)
  | case7 selector args h0 h1 h2 =>
    exact .selector rfl (List.lookup_eq_none_iff.2 (by simp [Layout.forms, h0, h1, h2]))

theorem conforms_decodeScalar (op : Opcode) (args : List Int64) :
    Conforms .scalar op args (decodeScalar op args) := by
  fun_cases decodeScalar op args with
  | case1 value => exact .ok _ rfl rfl
  | case2 addr => exact .ok _ rfl rfl
  | case3 selector value h0 h1 =>
    exact .selector rfl (List.lookup_eq_none_iff.2 (by simp [Layout.forms, h0, h1]))
  | case4 args h =>
    exact .count (Layout.expected_eq_anyForm (by decide) _) rfl
      (by simpa [Arity.Admits, List.length_eq_two] using h)

theorem conforms_decodeLabel (op : Opcode) (args : List Int64) :
    Conforms .label op args (decodeLabel op args) := by
  fun_cases decodeLabel op args with
  | case1 label => exact .ok _ rfl rfl
  | case2 args h => exact .count rfl rfl (by simpa [Arity.Admits, List.length_eq_one_iff] using h)

theorem conforms_decodeNothing (op : Opcode) (args : List Int64) :
    Conforms .nothing op args (decodeNothing op args) := by
  fun_cases decodeNothing op args with
  | case1 => exact .ok _ rfl rfl
  | case2 args h => exact .count rfl rfl (by simpa [Arity.Admits] using h)

theorem conforms_decodeAccess (op : Opcode) (args : List Int64) :
    Conforms .access op args (decodeAccess op args) := by
  fun_cases decodeAccess op args with
  | case1 => exact .count rfl rfl (by simp [Arity.Admits])
  | case2 selector h index dest values =>
    rcases h with rfl | rfl <;> exact .ok _ rfl (by simp [Arity.Admits])
  | case3 selector args h hargs =>
    have hn : ¬ (Arity.atLeast 3).Admits (args.length + 1) := by
      rcases args with _ | ⟨index, _ | ⟨dest, values⟩⟩
      · simp [Arity.Admits]
      · simp [Arity.Admits]
      · exact (hargs index dest values rfl).elim
    rcases h with rfl | rfl <;> exact .count rfl rfl hn
  | case4 selector _ h index dest array => rcases h with rfl | rfl <;> exact .ok _ rfl rfl
  | case5 selector args _ h hargs =>
    have hn : ¬ (Arity.exactly 4).Admits (args.length + 1) := by
      simpa [Arity.Admits, List.length_eq_three] using hargs
    rcases h with rfl | rfl <;> exact .count rfl rfl hn
  | case6 selector args h01 h23 =>
    rw [not_or] at h01 h23
    exact .selector rfl (List.lookup_eq_none_iff.2 (by simp [Layout.forms, h01, h23]))

theorem conforms_decodeJump (op : Opcode) (args : List Int64) :
    Conforms .jump op args (decodeJump op args) := by
  fun_cases decodeJump op args with
  | case1 | case2 | case3 | case4 => exact .ok _ rfl rfl
  | case5 selector condition label h0 h1 h2 h3 =>
    exact .selector rfl (List.lookup_eq_none_iff.2 (by simp [Layout.forms, h0, h1, h2, h3]))
  | case6 args h =>
    exact .count (Layout.expected_eq_anyForm (by decide) _) rfl
      (by simpa [Arity.Admits, List.length_eq_three] using h)

theorem conforms_decodeInput (op : Opcode) (args : List Int64) :
    Conforms .input op args (decodeInput op args) := by
  fun_cases decodeInput op args with
  | case1 | case2 | case3 | case4 => exact .ok _ rfl rfl
  | case5 selector dest h0 h1 h2 h3 =>
    exact .selector rfl (List.lookup_eq_none_iff.2 (by simp [Layout.forms, h0, h1, h2, h3]))
  | case6 args h =>
    exact .count (Layout.expected_eq_anyForm (by decide) _) rfl
      (by simpa [Arity.Admits, List.length_eq_two] using h)

theorem conforms_ofArguments (op : Opcode) (args : List Int64) :
    Conforms op.layout op args (ofArguments op args) := by
  cases op with
  | declareLocal | set => exact (conforms_decodeStore _ args).map _
  | declareLabel | gotoLabel => exact (conforms_decodeLabel _ args).map _
  | returnFromLabel | noOp => exact (conforms_decodeNothing _ args).map _
  | exit | sleep => exact (conforms_decodeScalar _ args).map _
  | print | printString => exact (conforms_decodeSource _ args).map _
  | accessIndex => exact (conforms_decodeAccess _ args).map _
  | ifJump => exact (conforms_decodeJump _ args).map _
  | input => exact (conforms_decodeInput _ args).map _

/-! ## Statements -/

/-- The tokens spell an instruction. -/
def Decodes (tokens : List Int64) : Prop := ∃ i, decode tokens = .ok (some i)

theorem decode_code_cons (op : Opcode) (args : List Int64) :
    decode (op.code :: args) = (ofArguments op args).map some := by
  simp [decode]

/-- A statement decodes if its selector calls for as many arguments as there are. -/
theorem decodes_iff : Decodes (op.code :: args) ↔
    ∃ arity, op.layout.form? (op.layout.selector? args) = some arity ∧
      arity.Admits args.length := by
  rw [Decodes, decode_code_cons]
  have hconforms := conforms_ofArguments op args
  constructor
  · rintro ⟨i, hi⟩
    obtain ⟨j, hj, -⟩ := map_eq_ok_iff.1 hi
    rw [hj] at hconforms
    cases hconforms with
    | ok _ hform hn => exact ⟨_, hform, hn⟩
  · rintro ⟨arity, hform, hn⟩
    cases hargs : ofArguments op args with
    | ok i => exact ⟨i, rfl⟩
    | error error =>
      rw [hargs] at hconforms
      cases hconforms with
      | selector hs hnone => simp [hs, hnone] at hform
      | count harity hgot hnot =>
        rw [Layout.expected, hform, Option.getD_some] at harity
        exact (hnot (harity ▸ hgot ▸ hn)).elim

theorem expected_admits_of_decodes (h : Decodes (op.code :: args)) :
    (op.layout.expected (op.layout.selector? args)).Admits args.length := by
  obtain ⟨arity, hform, hn⟩ := decodes_iff.1 h
  rwa [Layout.expected, hform, Option.getD_some]

end Instruction

namespace Opcode

open Instruction (Decodes decodes_iff)

/-- Some statement with this operation and selector decodes. -/
def Knows (op : Opcode) (selector : Option Int64) : Prop :=
  ∃ args, op.layout.selector? args = selector ∧ Decodes (op.code :: args)

/-- The numbers of arguments with which statements of the operation and the selector decode. If the
operation does not know the selector, the statements with any other selector count. -/
def counts (op : Opcode) (selector : Option Int64) : Set Nat :=
  {n | ∃ args, args.length = n ∧ (op.Knows selector → op.layout.selector? args = selector) ∧
    Decodes (op.code :: args)}

variable {op : Opcode} {selector : Option Int64}

theorem knows_iff : op.Knows selector ↔ ∃ arity, op.layout.form? selector = some arity := by
  constructor
  · rintro ⟨args, rfl, hdecodes⟩
    obtain ⟨arity, hform, -⟩ := decodes_iff.1 hdecodes
    exact ⟨arity, hform⟩
  · rintro ⟨arity, hform⟩
    obtain ⟨args, hlength, hselector⟩ := Layout.exists_args hform arity.isLeast_admits.1
    refine ⟨args, hselector, decodes_iff.2 ⟨arity, hselector ▸ hform, ?_⟩⟩
    rw [hlength]
    exact arity.isLeast_admits.1

/-- What is expected beside a selector is what other statements with it have. -/
theorem mem_counts_iff {n : Nat} :
    n ∈ op.counts selector ↔ (op.layout.expected selector).Admits n := by
  have hargs {other : Option Int64} {arity : Arity} (hform : op.layout.form? other = some arity)
      (hn : arity.Admits n) :
      ∃ args, args.length = n ∧ op.layout.selector? args = other ∧ Decodes (op.code :: args) := by
    obtain ⟨args, rfl, rfl⟩ := Layout.exists_args hform hn
    exact ⟨args, rfl, rfl, decodes_iff.2 ⟨arity, hform, hn⟩⟩
  cases hform : op.layout.form? selector with
  | some arity =>
    rw [Layout.expected, hform, Option.getD_some]
    constructor
    · rintro ⟨args, rfl, hselector, hdecodes⟩
      obtain ⟨other, hother, hn⟩ := decodes_iff.1 hdecodes
      rw [hselector (knows_iff.2 ⟨arity, hform⟩), hform] at hother
      exact Option.some.inj hother ▸ hn
    · intro hn
      obtain ⟨args, hlength, hselector, hdecodes⟩ := hargs hform hn
      exact ⟨args, hlength, fun _ => hselector, hdecodes⟩
  | none =>
    have hunknown : ¬ op.Knows selector := by simp [knows_iff, hform]
    rw [Layout.expected, hform, Option.getD_none, Layout.anyForm_admits_iff]
    constructor
    · rintro ⟨args, rfl, -, hdecodes⟩
      obtain ⟨arity, hother, hn⟩ := decodes_iff.1 hdecodes
      exact ⟨_, arity, hother, hn⟩
    · rintro ⟨other, arity, hother, hn⟩
      obtain ⟨args, hlength, -, hdecodes⟩ := hargs hother hn
      exact ⟨args, hlength, fun hknows => (hunknown hknows).elim, hdecodes⟩

/-- The codes are the numbers from zero to twelve. -/
theorem ofCode?_eq_none_iff {code : Int64} : ofCode? code = none ↔ code < 0 ∨ 12 < code := by
  constructor
  · intro hnone
    by_contra hrange
    rw [not_or, Int64.not_lt, Int64.not_lt, Int64.le_iff_toInt_le, Int64.le_iff_toInt_le] at hrange
    obtain ⟨hlow, hhigh⟩ : 0 ≤ code.toInt ∧ code.toInt ≤ 12 := hrange
    rw [← code.ofInt_toInt] at hnone
    generalize code.toInt = n at *
    interval_cases n <;> cases hnone
  · intro hrange
    cases hop : ofCode? code with
    | none => rfl
    | some op =>
      obtain rfl := ofCode?_eq_some_iff.1 hop
      revert hrange
      cases op <;> decide

end Opcode

namespace Instruction

variable {tokens : List Int64}

theorem decode_eq_error {error : DecodeError} (h : decode tokens = .error error) :
    (∃ code args, tokens = code :: args ∧ Opcode.ofCode? code = none ∧ error = .unknownCode code) ∨
      ∃ op args, tokens = op.code :: args ∧
        Conforms op.layout op args (.error error : Except DecodeError Instruction) := by
  cases tokens with
  | nil => cases h
  | cons code args =>
    cases hop : Opcode.ofCode? code with
    | none =>
      simp only [decode, hop, Except.error.injEq] at h
      exact .inl ⟨code, args, rfl, hop, h.symm⟩
    | some op =>
      refine .inr ⟨op, args, by rw [Opcode.ofCode?_eq_some_iff.1 hop], ?_⟩
      have hconforms := conforms_ofArguments op args
      cases hargs : ofArguments op args with
      | ok i => simp [decode, hop, hargs, Except.map] at h
      | error other =>
        obtain rfl : other = error := by simpa [decode, hop, hargs, Except.map] using h
        exact hargs ▸ hconforms

theorem decode_eq_unknownCode_iff {code : Int64} :
    decode tokens = .error (.unknownCode code) ↔
      tokens[0]? = some code ∧ (code < 0 ∨ 12 < code) := by
  constructor
  · intro h
    obtain ⟨first, args, rfl, hnone, herror⟩ | ⟨op, args, -, hconforms⟩ := decode_eq_error h
    · obtain rfl := DecodeError.unknownCode.inj herror
      exact ⟨rfl, Opcode.ofCode?_eq_none_iff.1 hnone⟩
    · cases hconforms
  · rintro ⟨hcode, hrange⟩
    cases tokens with
    | nil => cases hcode
    | cons first args =>
      obtain rfl := Option.some.inj hcode
      simp [decode, Opcode.ofCode?_eq_none_iff.2 hrange]

theorem of_decode_eq_unknownSelector {op : Opcode} {selector : Int64}
    (h : decode tokens = .error (.unknownSelector op selector)) :
    ∃ rest, tokens = op.code :: selector :: rest ∧
      ∀ args, ¬ Decodes (op.code :: selector :: args) := by
  obtain ⟨_, _, _, _, herror⟩ | ⟨op', args, rfl, hconforms⟩ := decode_eq_error h
  · cases herror
  · cases hconforms with
    | selector hselector hnone =>
      have hhas : op.layout.hasSelector = true := by
        by_contra hnot
        simp [Layout.selector?, hnot] at hselector
      rw [Layout.selector?, if_pos hhas] at hselector
      obtain ⟨rest, rfl⟩ := List.head?_eq_some_iff.1 hselector
      refine ⟨rest, rfl, fun others hdecodes => ?_⟩
      obtain ⟨arity, hform, -⟩ := decodes_iff.1 hdecodes
      simp [Layout.selector?, hhas, hnone] at hform

theorem of_decode_eq_argumentCount {op : Opcode} {arity : Arity} {got : Nat}
    (h : decode tokens = .error (.argumentCount op arity got)) :
    ∃ args, tokens = op.code :: args ∧ got = args.length ∧
      arity = op.layout.expected (op.layout.selector? args) ∧ ¬ arity.Admits got := by
  obtain ⟨_, _, _, _, herror⟩ | ⟨op', args, rfl, hconforms⟩ := decode_eq_error h
  · cases herror
  · cases hconforms with
    | count harity hgot hnot => exact ⟨args, rfl, hgot, harity.symm, hnot⟩

/-- What an error of decoding says about a statement.

A code is unknown exactly if it is none of the codes. A selector is called unknown only if no
statement with the operation and this selector decodes. Where arguments are counted, no statement of
the same operation, selector and length decodes, and the expected number is the least with which one
of another length does: all larger numbers do as well if it is a lower bound, and no other number if
it is exact. The number found is below the bound, or another than the exact one. -/
theorem decode_errors_are_exact (tokens : List Int64) :
    (∀ code, decode tokens = .error (.unknownCode code) ↔
      tokens[0]? = some code ∧ (code < 0 ∨ 12 < code)) ∧
    (∀ op selector, decode tokens = .error (.unknownSelector op selector) →
      tokens[0]? = some op.code ∧ tokens[1]? = some selector ∧
      ∀ args, ¬ Decodes (op.code :: selector :: args)) ∧
    ∀ op arity got, decode tokens = .error (.argumentCount op arity got) →
      let selector := op.layout.selector? tokens.tail
      tokens[0]? = some op.code ∧ got = tokens.length - 1 ∧
      (∀ args, args.length = got → op.layout.selector? args = selector →
        ¬ Decodes (op.code :: args)) ∧
      IsLeast (op.counts selector) arity.least ∧
      (arity.isOpen = true ↔ ∃ n ∈ op.counts selector, arity.least < n) ∧
      (arity.isOpen = true → op.counts selector = Set.Ici arity.least) ∧
      if arity.isOpen then got < arity.least else got ≠ arity.least := by
  refine ⟨fun code => decode_eq_unknownCode_iff, fun op selector h => ?_, fun op arity got h => ?_⟩
  · obtain ⟨rest, rfl, hnot⟩ := of_decode_eq_unknownSelector h
    exact ⟨rfl, rfl, hnot⟩
  · intro selector
    obtain ⟨args, rfl, rfl, harity, hnot⟩ := of_decode_eq_argumentCount h
    change arity = op.layout.expected selector at harity
    have hcounts : op.counts selector = {n | arity.Admits n} := by
      rw [harity]
      exact Set.ext fun n => Opcode.mem_counts_iff
    rw [hcounts]
    refine ⟨rfl, rfl, fun others hlength hselector hdecodes => hnot ?_, arity.isLeast_admits,
      Arity.isOpen_iff, Arity.setOf_admits_of_isOpen, Arity.not_admits_iff.1 hnot⟩
    have hadmits := expected_admits_of_decodes hdecodes
    rwa [hselector, hlength, ← harity] at hadmits

-- A store without a selector could have been one of an empty array, which has the fewest arguments.
example : decode [1] = .error (.argumentCount .set (.atLeast 2) 0) := rfl

-- Where all forms have one length, the arguments are counted before the selector is looked at.
example : decode [5, 7] = .error (.argumentCount .exit (.exactly 2) 1) := rfl

end Instruction

end IntScript
