import Mathlib.Data.List.DropRight

/-!
# Text in the scripts

The functions of the interpreter on text that the collecting script uses. Which characters are
decimal digits depends on the version of Unicode, and is left open.
-/

namespace EnterpriseAcs.Luvos

abbrev Text := List Char

/-- `str.isspace` of a character. -/
def isSpace (c : Char) : Bool :=
  let n := c.toNat
  decide (9 ≤ n ∧ n ≤ 13 ∨ 28 ≤ n ∧ n ≤ 32 ∨ n = 0x85 ∨ n = 0xA0 ∨ n = 0x1680 ∨
    0x2000 ≤ n ∧ n ≤ 0x200A ∨ n = 0x2028 ∨ n = 0x2029 ∨ n = 0x202F ∨ n = 0x205F ∨ n = 0x3000)

/-- The characters that end a line. -/
def isLineBreak (c : Char) : Bool :=
  let n := c.toNat
  decide (10 ≤ n ∧ n ≤ 13 ∨ 28 ≤ n ∧ n ≤ 30 ∨ n = 0x85 ∨ n = 0x2028 ∨ n = 0x2029)

/-- `rstrip()`. -/
def rstrip (s : Text) : Text := s.rdropWhile isSpace

/-- `split()`. -/
def split (s : Text) : List Text := (s.splitOnP isSpace).filter (· ≠ [])

/-! ## Lines -/

/-- The lines that follow, with `line` read already. -/
def linesFrom (line : Text) : Text → List Text
  | [] => if line = [] then [] else [line]
  | '\r' :: '\n' :: rest => (line ++ ['\r', '\n']) :: linesFrom [] rest
  | c :: rest =>
    if isLineBreak c then (line ++ [c]) :: linesFrom [] rest else linesFrom (line ++ [c]) rest

/-- What `readline` returns, call by call, up to the end of the file. -/
def splitLines (s : Text) : List Text := linesFrom [] s

/-! ## Numbers -/

section Numbers

variable (decimal : Char → Option Nat)

/-- The digits that follow a number: a single underscore may stand before each of them. -/
def digitsFrom (n : Nat) : Text → Option Nat
  | [] => some n
  | ['_'] => none
  | '_' :: c :: rest => (decimal c).bind fun d => digitsFrom (10 * n + d) rest
  | c :: rest => (decimal c).bind fun d => digitsFrom (10 * n + d) rest

/-- An unsigned number. -/
def pyNat : Text → Option Nat
  | [] => none
  | c :: rest => (decimal c).bind fun d => digitsFrom decimal d rest

/-- `int` of a text without spaces. -/
def pyInt : Text → Option Int
  | '+' :: rest => (pyNat decimal rest).map fun n => (n : Int)
  | '-' :: rest => (pyNat decimal rest).map fun n => -(n : Int)
  | s => (pyNat decimal s).map fun n => (n : Int)

end Numbers

/-- The digits of ASCII. -/
def asciiDecimal (c : Char) : Option Nat :=
  if 0x30 ≤ c.toNat ∧ c.toNat ≤ 0x39 then some (c.toNat - 0x30) else none

/-! ## Paths -/

/-- `os.path.split`. -/
def pathSplit (path : Text) : Text × Text :=
  let head := path.rdropWhile (· ≠ '/')
  (if head.all (· = '/') then head else head.rdropWhile (· = '/'), path.rtakeWhile (· ≠ '/'))

/-- `os.path.join` with a name, which does not begin with a slash. -/
def pathJoin (path name : Text) : Text :=
  if path = [] ∨ path.getLast? = some '/' then path ++ name else path ++ '/' :: name

/-- The encoding of the output file has 256 characters. -/
def latin1 (s : Text) : Bool := s.all fun c => c.toNat < 256

end EnterpriseAcs.Luvos
