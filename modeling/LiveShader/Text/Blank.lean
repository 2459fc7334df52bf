/-!
# Text.Blank — white space and trimming

The characters with the Unicode property `White_Space`, and the text between the blanks at both ends.
-/
namespace LiveShader
namespace Text

/-- The characters of the Unicode property `White_Space`. -/
def isBlank (c : Char) : Bool :=
  let n := c.toNat
  (0x09 ≤ n && n ≤ 0x0d) || n == 0x20 || n == 0x85 || n == 0xa0 || n == 0x1680 || (0x2000 ≤ n && n ≤ 0x200a) ||
    n == 0x2028 || n == 0x2029 || n == 0x202f || n == 0x205f || n == 0x3000

def trimFront (cs : List Char) : List Char := cs.dropWhile isBlank

def trimBack (cs : List Char) : List Char := (cs.reverse.dropWhile isBlank).reverse

def trimChars (cs : List Char) : List Char := trimBack (trimFront cs)

def trim (s : String) : String := String.ofList (trimChars s.toList)

def isAllBlank (cs : List Char) : Bool := cs.all isBlank

theorem trimFront_eq_nil_iff (cs : List Char) : trimFront cs = [] ↔ isAllBlank cs = true := by
  induction cs with
  | nil => simp [trimFront, isAllBlank]
  | cons c cs ih =>
    cases hb : isBlank c
    · simp [trimFront, isAllBlank, hb]
    · rw [trimFront, List.dropWhile_cons_of_pos hb, isAllBlank, List.all_cons, hb, Bool.true_and]
      exact ih

end Text
end LiveShader
