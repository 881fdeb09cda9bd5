/-!
# Scripts

A script is a sequence of statements, each a row of integers together with the number of the line it
stands on. The program counter is an index into the sequence.
-/

namespace IntScript

structure Statement where
  /-- The line of the source text, counted from one. -/
  line : Nat
  /-- Operation code and arguments. Empty for a blank line. -/
  tokens : List Int64
  deriving DecidableEq, Repr

namespace Statement

def length (s : Statement) : Nat := s.tokens.length

def isEmpty (s : Statement) : Bool := s.tokens.isEmpty

def token? (s : Statement) (i : Nat) : Option Int64 := s.tokens[i]?

/-- The tokens from position `i` on. -/
def tokensFrom (s : Statement) (i : Nat) : List Int64 := s.tokens.drop i

end Statement

structure Script where
  statements : Array Statement := #[]
  deriving DecidableEq, Repr

namespace Script

def size (script : Script) : Nat := script.statements.size

def isEmpty (script : Script) : Bool := script.statements.isEmpty

/-- The statement at a program counter. -/
def statement? (script : Script) (pc : Nat) : Option Statement := script.statements[pc]?

/-- The script with one statement a row, on lines one, two, and so on. -/
def ofRows (rows : List (List Int64)) : Script where
  statements := ((rows.zipIdx 1).map fun (tokens, line) => ⟨line, tokens⟩).toArray

end Script

end IntScript
