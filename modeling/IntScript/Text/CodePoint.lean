/-!
# Characters as integers

The code of a character is its code point. Every 64-bit integer stands for a character: one that is
no Unicode scalar value (negative, a surrogate, or beyond the last code point) stands for the
replacement character.
-/

namespace IntScript.Text

def replacement : Char := '\uFFFD'

def code (c : Char) : Int64 :=
  Int64.ofNat c.toNat

/-- The character with the given code. -/
def character (n : Int64) : Char :=
  if 0 ≤ n.toInt ∧ n.toInt.toNat.isValidChar then Char.ofNat n.toInt.toNat else replacement

/-- The codes of the characters of a text. -/
def codes (s : String) : List Int64 :=
  s.toList.map code

/-- The text whose characters have the given codes. -/
def ofCodes (ns : List Int64) : String :=
  String.ofList (ns.map character)

theorem toInt_code (c : Char) : (code c).toInt = c.toNat := by
  have h : c.toNat < 0x110000 := by
    have := c.valid
    simp only [UInt32.isValidChar, Nat.isValidChar] at this
    have hc : c.toNat = c.val.toNat := rfl
    omega
  rw [code, Int64.toInt_ofNat_of_lt (by omega)]

/-- The character with the code of `c` is `c`. -/
@[simp]
theorem character_code (c : Char) : character (code c) = c := by
  have hvalid : c.toNat.isValidChar := c.valid
  simp [character, toInt_code, hvalid]

@[simp]
theorem ofCodes_codes (s : String) : ofCodes (codes s) = s := by
  simp [ofCodes, codes, List.map_map, Function.comp_def]

end IntScript.Text
