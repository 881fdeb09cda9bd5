import IntScript.Instruction.Basic
import IntScript.Text.Blank

/-!
# Reading input

The object one line of input stands for in each format: a single integer, integers with blanks
between them, a single character, or any text.
-/

namespace IntScript

namespace InputFormat

def readChars? : InputFormat → List Char → Option Object
  | int, cs => (Text.numeral? (Text.trim cs)).map .int
  | ints, cs => ((Text.words cs).mapM Text.numeral?).map .array
  | char, [c] => some (.int (Text.code c))
  | char, _ => none
  | line, cs => some (.array (cs.map Text.code))

/-- The object a line of bytes stands for. The bytes have to be UTF-8. -/
def read? (format : InputFormat) (bytes : ByteArray) : Option Object :=
  (String.fromUTF8? bytes).bind fun text => format.readChars? text.toList

end InputFormat

end IntScript
