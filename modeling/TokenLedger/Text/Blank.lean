/-!
White space: the characters that are dropped from both ends of a text.
-/

namespace TokenLedger.Text

/-- Whether a character is white space. -/
def IsBlank (c : Char) : Bool :=
  let n := c.toNat
  (9 ≤ n && n ≤ 13) || n == 0x20 || n == 0x85 || n == 0xA0 || n == 0x1680
    || (0x2000 ≤ n && n ≤ 0x200A) || n == 0x2028 || n == 0x2029 || n == 0x202F || n == 0x205F
    || n == 0x3000

/-- A list of characters without the white space at its ends. -/
def trimChars (cs : List Char) : List Char :=
  ((cs.dropWhile IsBlank).reverse.dropWhile IsBlank).reverse

/-- A text without the white space at its ends. -/
def trim (s : String) : String := String.ofList (trimChars s.toList)

/-- The fields between separators; there is always one more than there are separators. -/
def fields (separator : Char) : List Char → List (List Char)
  | [] => [[]]
  | c :: rest =>
    if c = separator then [] :: fields separator rest
    else
      match fields separator rest with
      | [] => [[c]]
      | first :: others => (c :: first) :: others

end TokenLedger.Text
