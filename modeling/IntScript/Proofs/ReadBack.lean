import IntScript.Proofs.Encoding
import IntScript.Proofs.LineReaders
import IntScript.Proofs.SpelledText
import IntScript.Proofs.WellFormed

/-!
# Reading back what has been printed

An object is printed as numerals or as a text, and for each kind of object there is a format of
input for either form. Numerals are read back as the object they were printed from. So is a text,
except that an integer that is no Unicode scalar value is printed as the replacement character,
whose code is then read in its place.
-/

namespace IntScript

namespace Text

/-! ## Codes of characters -/

/-- The integer is a Unicode scalar value: a code point that is no surrogate. -/
def IsScalarValue (n : Int64) : Prop :=
  (0 ≤ n.toInt ∧ n.toInt ≤ 0x10FFFF) ∧ ¬(0xD800 ≤ n.toInt ∧ n.toInt ≤ 0xDFFF)

instance : DecidablePred IsScalarValue := fun n =>
  inferInstanceAs (Decidable ((0 ≤ n.toInt ∧ n.toInt ≤ 0x10FFFF) ∧
    ¬(0xD800 ≤ n.toInt ∧ n.toInt ≤ 0xDFFF)))

/-- A scalar value itself, and the code of the replacement character for any other integer. -/
def clean (n : Int64) : Int64 := if IsScalarValue n then n else 0xFFFD

theorem isScalarValue_iff {n : Int64} :
    IsScalarValue n ↔ 0 ≤ n.toInt ∧ n.toInt.toNat.isValidChar := by
  unfold IsScalarValue Nat.isValidChar
  omega

/-- The character that an integer stands for has the integer as its code, if it can. -/
theorem code_character (n : Int64) : code (character n) = clean n := by
  unfold character clean
  simp only [← isScalarValue_iff]
  split
  next h =>
    obtain ⟨hpos, hvalid⟩ := isScalarValue_iff.1 h
    have hchar : (Char.ofNat n.toInt.toNat).toNat = n.toInt.toNat := by
      rw [Char.ofNat, dif_pos hvalid]
      rfl
    apply Int64.toInt_inj.1
    rw [toInt_code, hchar, Int.toNat_of_nonneg hpos]
  next => rfl

theorem codes_ofCodes (ns : List Int64) : codes (ofCodes ns) = ns.map clean := by
  simp [codes, ofCodes, code_character]

end Text

namespace Object

/-! ## Printed forms and their formats -/

/-- The format that numerals of such an object are in. -/
def numeralFormat : Object → InputFormat
  | int _ => .int
  | array _ => .ints

/-- The format that the text of such an object is in. -/
def textFormat : Object → InputFormat
  | int _ => .char
  | array _ => .line

/-- The object with the codes of the characters that its integers stand for. -/
def clean : Object → Object
  | int n => .int (Text.clean n)
  | array ns => .array (ns.map Text.clean)

theorem readChars?_numerals (object : Object) :
    object.numeralFormat.readChars? object.numerals.toList = some object := by
  cases object with
  | int n =>
    have htrim : Text.trim (Text.digits n.toInt) = Text.digits n.toInt :=
      (Text.words_eq_singleton_iff.1 (Text.isWord_digits n.toInt).words_eq).2
    simp [numeralFormat, numerals, InputFormat.readChars?, htrim, Text.numeral?_digits]
  | array ns =>
    have hread : (ns.map fun n => Text.digits n.toInt).mapM Text.numeral? = some ns := by
      rw [mapM_eq_some_iff, List.forall₂_map_left_iff]
      exact List.forall₂_same.2 fun n _ => Text.numeral?_digits n
    simp [numeralFormat, numerals, InputFormat.readChars?, Text.words_decimals, hread]

theorem exists_text (object : Object) :
    ∃ text, object.text? = some text ∧
      object.textFormat.readChars? text.toList = some object.clean := by
  cases object with
  | int n => exact ⟨_, rfl, by simp [textFormat, InputFormat.readChars?, Text.ofCodes, clean,
      Text.code_character]⟩
  | array ns =>
    refine ⟨_, rfl, ?_⟩
    simpa [textFormat, InputFormat.readChars?, clean, Text.codes] using Text.codes_ofCodes ns

end Object

/-! ## Statements -/

namespace Machine

variable {η : Type} [Host η]

/-- A statement that reads for `dest` and gets `line` stores the object: it puts the object into the
slot at index `slot` of the stack, takes the line from the host, and changes nothing else but the
journal. -/
def StoresOn (program : Program) (m : Machine η) (line : String) (format : InputFormat)
    (dest : Int64) (slot : Nat) (object : Object) : Prop :=
  ∀ host', Host.readLine m.host = (.ok (some line.toUTF8), host') → ∀ number,
    let statement : Statement := ⟨number, (Instruction.input dest format).encode⟩
    ∃ hslot : slot < m.state.stack.size,
      program.dispatch statement m = .running
        { host := host'
          state := { m.state with stack := m.state.stack.set slot object }
          journal := m.journal.push (.dispatch statement.line statement.tokens) }

theorem storesOn_of_readChars? (program : Program) {m : Machine η} (h : m.state.FindsSlots)
    {dest : Int64} {slot : Nat} (hdest : m.state.resolve dest = .ok slot) {line : String}
    {format : InputFormat} {object : Object} (hread : format.readChars? line.toList = some object) :
    m.StoresOn program line format dest slot object := by
  intro host' hline number statement
  obtain ⟨hslot, -, hset⟩ := h.slot_of_resolve hdest
  let s' : State := { m.state with stack := m.state.stack.set slot object }
  have hreceive : m.state.receive dest format (some line.toUTF8) = .ok (.silent s') := by
    simp only [State.receive, format.read?_of_toUTF8, hread, hset, Except.map, s']
  have hexecute : program.execute statement.tokens m.state m.host = (.ok (.silent s'), host') := by
    simp only [Program.execute, statement, Instruction.decode_encode, Instruction.execute, hline,
      hreceive]
  exact ⟨hslot, by simp [Program.dispatch_eq, hexecute, s']⟩

/-- What has been printed can be read back, by a machine in whatever state operations have led to,
wherever its program counter stands and into whichever of its slots.

The numerals of an integer and of an array are read as this integer and this array. Every object has
a text. That of an array is read as the array of the codes of its characters, and that of an integer
as the code of its one character; these are the integers of the object, with the code of the
replacement character for those that are no scalar values. -/
theorem printed_objects_are_read_back (program : Program) (host : η) (journal : Array Event)
    (operations : List Operation) (pc : Nat) {dest : Int64} {slot : Nat} :
    let m : Machine η := { performAll program { host, journal } operations with state.pc := pc }
    m.state.resolve dest = .ok slot →
      (∀ n, m.StoresOn program (Object.int n).numerals .int dest slot (.int n)) ∧
      (∀ vs, m.StoresOn program (Object.array vs).numerals .ints dest slot (.array vs)) ∧
      (∀ object : Object, object.text? ≠ none) ∧
      (∀ vs, ∃ text, (Object.array vs).text? = some text ∧
        m.StoresOn program text .line dest slot (.array (vs.map Text.clean))) ∧
      ∀ n, ∃ text, (Object.int n).text? = some text ∧
        m.StoresOn program text .char dest slot (.int (Text.clean n)) := by
  intro m hdest
  have hslots : m.state.FindsSlots :=
    (wellFormed_performAll (State.WellFormed.empty program.script) operations).findsSlots
  have hnumerals (object : Object) :
      m.StoresOn program object.numerals object.numeralFormat dest slot object :=
    storesOn_of_readChars? program hslots hdest object.readChars?_numerals
  have htext (object : Object) : ∃ text, object.text? = some text ∧
      m.StoresOn program text object.textFormat dest slot object.clean := by
    obtain ⟨text, htext, hread⟩ := object.exists_text
    exact ⟨text, htext, storesOn_of_readChars? program hslots hdest hread⟩
  refine ⟨fun n => hnumerals (.int n), fun vs => hnumerals (.array vs), fun object => ?_,
    fun vs => htext (.array vs), fun n => htext (.int n)⟩
  obtain ⟨text, htext, -⟩ := htext object
  simp [htext]

/-- An array with integers that are no scalar values is printed with replacement characters, and
these are read. -/
theorem replacements_are_read_back :
    let program : Program := { script := {} }
    let text := "H\uFFFD\uFFFD\uFFFD"
    let m : Machine MemoryHost :=
      performAll program { host := .ofLines [text.toUTF8] } [.declareLocal 0 (.int 0)]
    m.state.resolve 0 = .ok 0 ∧
      (Object.array [72, -1, 0xD800, 0x110000]).text? = some text ∧
      (program.dispatch ⟨1, [12, 3, 0]⟩ m).machine.state.stack =
        #[.array [72, 0xFFFD, 0xFFFD, 0xFFFD]] := by
  intro program text m
  have hdest : m.state.resolve 0 = .ok 0 := rfl
  obtain ⟨-, -, -, htext, -⟩ := printed_objects_are_read_back program
    (MemoryHost.ofLines [text.toUTF8]) #[] [.declareLocal 0 (.int 0)] 0 hdest
  obtain ⟨text', htext', hstores⟩ := htext [72, -1, 0xD800, 0x110000]
  obtain rfl : text = text' := by
    rw [← Option.some_inj, ← htext']
    decide +kernel
  obtain ⟨_, hdispatch⟩ := hstores _ rfl 1
  exact ⟨hdest, htext', congrArg (fun p => p.machine.state.stack) hdispatch⟩

end Machine

end IntScript
