/-!
# Decimal numerals of 64-bit integers

A numeral is an optional sign followed by one or more ASCII digits. Any number of leading zeros may
stand in it; the value has to fit into 64 bits. The written form has no plus sign and no leading
zeros.
-/

namespace IntScript.Text

/-- The value of a non-empty run of ASCII digits. -/
def natural? (cs : List Char) : Option Nat :=
  if !cs.isEmpty && cs.all Char.isDigit then some (Nat.ofDigitChars 10 cs 0) else none

/-- The value of an optionally signed numeral. -/
def integer? : List Char → Option Int
  | '+' :: cs => (natural? cs).map Int.ofNat
  | '-' :: cs => (natural? cs).map fun n : Nat => -(n : Int)
  | cs => (natural? cs).map Int.ofNat

/-- The 64-bit integer with the given value, if there is one. -/
def int64? (n : Int) : Option Int64 :=
  if Int64.minValue.toInt ≤ n ∧ n ≤ Int64.maxValue.toInt then some (Int64.ofInt n) else none

/-- The 64-bit integer a numeral stands for. -/
def numeral? (cs : List Char) : Option Int64 :=
  (integer? cs).bind int64?

/-- The decimal digits of an integer, after a minus sign if it is negative. -/
def digits : Int → List Char
  | .ofNat n => Nat.toDigits 10 n
  | .negSucc n => '-' :: Nat.toDigits 10 (n + 1)

def decimal (n : Int64) : String :=
  String.ofList (digits n.toInt)

/-- Decimal numerals with `separator` between neighbours. -/
def decimals (separator : String) (ns : List Int64) : String :=
  separator.intercalate (ns.map decimal)

@[simp]
theorem toList_decimal (n : Int64) : (decimal n).toList = digits n.toInt := by
  simp [decimal]

theorem int64?_toInt (n : Int64) : int64? n.toInt = some n := by
  rw [int64?, if_pos ⟨n.minValue_le_toInt, n.toInt_le⟩, Int64.ofInt_toInt]

theorem natural?_toDigits (n : Nat) : natural? (Nat.toDigits 10 n) = some n := by
  have hall : (Nat.toDigits 10 n).all Char.isDigit = true :=
    List.all_eq_true.2 fun c hc => Nat.isDigit_of_mem_toDigits (by decide) (by decide) hc
  have hne : (Nat.toDigits 10 n).isEmpty = false := by simp
  simp [natural?, hall, hne]

theorem integer?_toDigits (n : Nat) : integer? (Nat.toDigits 10 n) = some (n : Int) := by
  have hdigit : ∀ c ∈ Nat.toDigits 10 n, c.isDigit = true :=
    fun c hc => Nat.isDigit_of_mem_toDigits (by decide) (by decide) hc
  unfold integer?
  split
  · next h => exact absurd (hdigit '+' (by simp [h])) (by decide)
  · next h => exact absurd (hdigit '-' (by simp [h])) (by decide)
  · rw [natural?_toDigits, Option.map_some, Int.ofNat_eq_natCast]

theorem integer?_digits (n : Int) : integer? (digits n) = some n := by
  cases n with
  | ofNat n => exact integer?_toDigits n
  | negSucc n =>
    rw [digits, integer?, natural?_toDigits, Option.map_some]
    rfl

/-- A written integer reads back as itself. -/
theorem numeral?_digits (n : Int64) : numeral? (digits n.toInt) = some n := by
  rw [numeral?, integer?_digits, Option.bind_some, int64?_toInt]

end IntScript.Text
