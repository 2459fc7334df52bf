import LiveShader.Text.Line
/-!
# Text.Numeral — unsigned decimal numerals with a bound

A numeral is an optional plus sign and at least one ASCII digit; leading zeros count for nothing.
-/
namespace LiveShader
namespace Text

def digit? (c : Char) : Option Nat :=
  if '0' ≤ c ∧ c ≤ '9' then some (c.toNat - '0'.toNat) else none

/-- The value that digits have behind the digits of `acc`. -/
def digitsFrom? (acc : Nat) : List Char → Option Nat
  | [] => some acc
  | c :: cs => (digit? c).bind fun d => digitsFrom? (10 * acc + d) cs

def digits? : List Char → Option Nat
  | [] => none
  | cs => digitsFrom? 0 cs

def dropPlus : List Char → List Char
  | '+' :: cs => cs
  | cs => cs

def numeral? (limit : Nat) (cs : List Char) : Option Nat :=
  (digits? (dropPlus cs)).bind fun n => if n ≤ limit then some n else none

def limit8 : Nat := 255

def limit32 : Nat := 4294967295

end Text
end LiveShader
