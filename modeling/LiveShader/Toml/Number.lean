import LiveShader.Toml.Text
/-!
# Toml.Number — integers, floating-point numbers and moments of TOML

Integers are read to their value.  Of moments in time only the form is checked, and of floating-point numbers also
that they are not too great.
-/
namespace LiveShader
namespace Toml

/-- More digits, each possibly behind one underscore. -/
def moreDigits (p : Char → Bool) : List Char → List Char × List Char
  | '_' :: c :: r =>
    if p c then
      let (ds, rest) := moreDigits p r
      (c :: ds, rest)
    else ([], '_' :: c :: r)
  | c :: r =>
    if p c then
      let (ds, rest) := moreDigits p r
      (c :: ds, rest)
    else ([], c :: r)
  | [] => ([], [])

def digits? (p : Char → Bool) : Reader (List Char)
  | c :: r =>
    if p c then
      let (ds, rest) := moreDigits p r
      some (c :: ds, rest)
    else none
  | [] => none

def digitsValue (base : Nat) (ds : List Char) : Nat := ds.foldl (fun n c => base * n + (hexDigit? c).getD 0) 0

def isDecimal (c : Char) : Bool := '0' ≤ c && c ≤ '9'
def isOctal (c : Char) : Bool := '0' ≤ c && c ≤ '7'
def isBinary (c : Char) : Bool := c == '0' || c == '1'

def inRange? (n : Int) : Option Int := if -9223372036854775808 ≤ n ∧ n ≤ 9223372036854775807 then some n else none

def sign : List Char → Bool × List Char
  | '+' :: r => (false, r)
  | '-' :: r => (true, r)
  | cs => (false, cs)

/-- The digits of a decimal integer: a zero alone, or a first digit that is none. -/
def decimal? : Reader (List Char)
  | '0' :: r => some (['0'], r)
  | cs => digits? isDecimal cs

/-- An integer to base ten, or without a sign to base sixteen, eight or two. -/
def integer? : Reader Int
  | '0' :: 'x' :: r => based 16 (digits? (fun c => (hexDigit? c).isSome) r)
  | '0' :: 'o' :: r => based 8 (digits? isOctal r)
  | '0' :: 'b' :: r => based 2 (digits? isBinary r)
  | cs =>
    let (negative, r) := sign cs
    (decimal? r).bind fun (ds, rest) =>
      let n : Int := digitsValue 10 ds
      (inRange? (if negative then -n else n)).map (·, rest)
where
  based (base : Nat) : Option (List Char × List Char) → Option (Int × List Char)
    | some (ds, rest) => (inRange? (digitsValue base ds)).map (·, rest)
    | none => none

/-- The exponent of a floating-point number; zero when there is none. -/
def exponent? : Reader Int
  | 'e' :: r | 'E' :: r =>
    let (negative, r) := sign r
    (digits? isDecimal r).map fun (ds, r) =>
      let n : Int := digitsValue 10 ds
      (if negative then -n else n, r)
  | _ => none

/-- The least number that double precision rounds to infinity. -/
def overflowBound : Nat := Nat.pow 2 1024 - Nat.pow 2 970

/-- Whether digits times a power of ten reach the overflow bound.  Only a number of 309 or 310 digits has to be
compared with it. -/
def overflows (digits : List Char) (power : Int) : Bool :=
  let n := digitsValue 10 digits
  let size : Int := (digits.dropWhile (· == '0')).length + power
  if n = 0 ∨ size ≤ 308 then false
  else if 310 < size then true
  else if 0 ≤ power then overflowBound ≤ n * Nat.pow 10 power.toNat
  else overflowBound * Nat.pow 10 (-power).toNat ≤ n

/-- The rest behind a number with a fraction, an exponent or both, and whether it overflows. -/
def scientific? (cs : List Char) : Option (Bool × List Char) :=
  (decimal? cs).bind fun (whole, r) =>
    match r with
    | '.' :: r => (digits? isDecimal r).map fun (fraction, r) =>
      let (power, r) := (exponent? r).getD (0, r)
      (overflows (whole ++ fraction) (power - fraction.length), r)
    | r => (exponent? r).map fun (power, r) => (overflows whole power, r)

/-- The rest behind a floating-point number; a positive one must not overflow. -/
def float? (cs : List Char) : Option (List Char) :=
  let (negative, r) := sign cs
  match r with
  | 'i' :: 'n' :: 'f' :: r => some r
  | 'n' :: 'a' :: 'n' :: r => some r
  | r => (scientific? r).bind fun (overflow, r) => if overflow && !negative then none else some r

/-- A number of exactly so many digits, between two bounds. -/
def field? (width low high : Nat) (cs : List Char) : Option (Nat × List Char) :=
  let ds := cs.take width
  let n := digitsValue 10 ds
  if ds.length = width ∧ ds.all isDecimal ∧ low ≤ n ∧ n ≤ high then some (n, cs.drop width) else none

def expect? (c : Char) : List Char → Option (List Char)
  | d :: r => if c = d then some r else none
  | [] => none

def isLeap (year : Nat) : Bool := (year % 4 == 0 && year % 100 != 0) || year % 400 == 0

def daysIn (year month : Nat) : Nat :=
  if month = 2 then (if isLeap year then 29 else 28)
  else if month = 4 ∨ month = 6 ∨ month = 9 ∨ month = 11 then 30
  else 31

def date? (cs : List Char) : Option (List Char) := do
  let (year, r) ← field? 4 0 9999 cs
  let (month, r) ← field? 2 1 12 (← expect? '-' r)
  let (_, r) ← field? 2 1 (daysIn year month) (← expect? '-' r)
  return r

/-- The rest behind a time of day, which may have a fraction of a second. -/
def time? (cs : List Char) : Option (List Char) := do
  let (_, r) ← field? 2 0 23 cs
  let (_, r) ← field? 2 0 59 (← expect? ':' r)
  let (_, r) ← field? 2 0 60 (← expect? ':' r)
  match r with
  | '.' :: f => if (f.takeWhile isDecimal).isEmpty then none else some (f.dropWhile isDecimal)
  | r => some r

def offset? : List Char → Option (List Char)
  | 'Z' :: r | 'z' :: r => some r
  | '+' :: r | '-' :: r => do
    let (_, r) ← field? 2 0 23 r
    let (_, r) ← field? 2 0 59 (← expect? ':' r)
    return r
  | _ => none

/-- The rest behind the time that may follow a date. -/
def timeOfDate (cs : List Char) : List Char :=
  match cs with
  | 'T' :: r | 't' :: r | ' ' :: r =>
    match time? r with
    | some r => (offset? r).getD r
    | none => cs
  | _ => cs

def moment? (cs : List Char) : Option (List Char) :=
  match date? cs with
  | some r => some (timeOfDate r)
  | none => time? cs

end Toml
end LiveShader
