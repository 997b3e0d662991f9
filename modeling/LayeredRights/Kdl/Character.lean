/-!
# Character classes of KDL

The document language has its own notions of space and newline, wider than ASCII, and forbids a few
characters outright. All of its newlines mean the same, so a text is brought to one newline
character (`unifyNewlines`) before it is read.
-/

namespace LayeredRights.Kdl

/-- The characters that end a line. A carriage return followed by a line feed is one newline. -/
def isNewline (c : Char) : Bool :=
  let n := c.toNat
  (0x0A ≤ n && n ≤ 0x0D) || n == 0x85 || n == 0x2028 || n == 0x2029

/-- The characters that separate the parts of a line. -/
def isSpace (c : Char) : Bool :=
  let n := c.toNat
  n == 0x09 || n == 0x20 || n == 0xA0 || n == 0x1680 || (0x2000 ≤ n && n ≤ 0x200A) || n == 0x202F ||
    n == 0x205F || n == 0x3000

/-- The characters that may stand in no document outside a comment: control characters, marks that
change the direction of text, and the byte order mark. -/
def isForbidden (c : Char) : Bool :=
  let n := c.toNat
  n ≤ 0x08 || (0x0E ≤ n && n ≤ 0x1F) || (0x200E ≤ n && n ≤ 0x200F) ||
    (0x202A ≤ n && n ≤ 0x202E) || (0x2066 ≤ n && n ≤ 0x2069) || n == 0xFEFF

/-- The characters with a meaning of their own, which end a bare word. -/
def isReserved (c : Char) : Bool :=
  c ∈ ['\\', '/', '(', ')', '{', '}', '[', ']', ';', '"', '#', '=']

/-- The characters of a bare word. -/
def isWordChar (c : Char) : Bool :=
  !(isSpace c || isNewline c || isForbidden c || isReserved c)

/-- The text with each of its newlines written as one line feed. -/
def unifyNewlines : List Char → List Char
  | '\r' :: '\n' :: cs => '\n' :: unifyNewlines cs
  | c :: cs => (if isNewline c then '\n' else c) :: unifyNewlines cs
  | [] => []

end LayeredRights.Kdl
