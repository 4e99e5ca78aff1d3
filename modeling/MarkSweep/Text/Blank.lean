import MarkSweep.Text.Ranges

namespace MarkSweep.Text

/-- The code points with the property `White_Space`, in increasing order. Letters that merely look
empty (the zero width space, the byte order mark, the Mongolian vowel separator) are not among
them. -/
def blankRanges : Ranges :=
  [(0x09, 0x0d), (0x20, 0x20), (0x85, 0x85), (0xa0, 0xa0), (0x1680, 0x1680), (0x2000, 0x200a),
    (0x2028, 0x2029), (0x202f, 0x202f), (0x205f, 0x205f), (0x3000, 0x3000)]

/-- Whether a character is white space in the sense of the Unicode property. -/
def isBlank (c : Char) : Bool := blankRanges.contains c

/-- The characters left when the leading and the trailing run of blanks are cut off. -/
def trimBlanks (cs : List Char) : List Char :=
  ((cs.dropWhile isBlank).reverse.dropWhile isBlank).reverse

end MarkSweep.Text
