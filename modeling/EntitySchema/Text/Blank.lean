/-!
# White space

The white space that trimming removes and that may stand between the tokens of an expression: the
blank characters of Unicode, the line ends and the byte order mark.
-/

namespace EntitySchema

namespace Text

/-- The white space characters. -/
def isBlank (c : Char) : Bool :=
  let n := c.toNat
  (0x09 ≤ n && n ≤ 0x0D) || n == 0x20 || n == 0xA0 || n == 0x1680 || (0x2000 ≤ n && n ≤ 0x200A) ||
    n == 0x2028 || n == 0x2029 || n == 0x202F || n == 0x205F || n == 0x3000 || n == 0xFEFF

/-- The text without the white space at its start. -/
def trimStart (cs : List Char) : List Char :=
  cs.dropWhile isBlank

/-- The text without the white space at its end. -/
def trimEnd (cs : List Char) : List Char :=
  (cs.reverse.dropWhile isBlank).reverse

/-- The text without the white space at both ends. -/
def trim (cs : List Char) : List Char :=
  trimEnd (trimStart cs)

/-- The white space at the start of a text, followed by the rest, is the text. -/
theorem takeWhile_append_trimStart (cs : List Char) :
    cs.takeWhile isBlank ++ trimStart cs = cs :=
  List.takeWhile_append_dropWhile

/-- The white space at the end of a text. -/
def trailingBlanks (cs : List Char) : List Char :=
  (cs.reverse.takeWhile isBlank).reverse

/-- The trimmed text followed by the white space at its end is the text. -/
theorem trimEnd_append_trailingBlanks (cs : List Char) : trimEnd cs ++ trailingBlanks cs = cs := by
  unfold trimEnd trailingBlanks
  rw [← List.reverse_append, List.takeWhile_append_dropWhile, List.reverse_reverse]

/-- The string without the white space at both ends. -/
def trimString (s : String) : String :=
  String.ofList (trim s.toList)

end Text

end EntitySchema
