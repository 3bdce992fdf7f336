import Wayfare.Text.Ranges

/-! # Blank characters

The white space of every script. It is trimmed from names and numbers, and a
text that holds nothing else counts as missing.
-/

namespace Wayfare.Text

/-- White space of every script, separators of files and records included. -/
def blankRanges : Ranges :=
  [(9, 13), (28, 32), (133, 133), (160, 160), (5760, 5760), (8192, 8202), (8232, 8233),
   (8239, 8239), (8287, 8287), (12288, 12288)]

def isBlankChar (c : Char) : Bool :=
  blankRanges.has c

def trimChars (cs : List Char) : List Char :=
  ((cs.dropWhile isBlankChar).reverse.dropWhile isBlankChar).reverse

def trim (s : String) : String :=
  String.ofList (trimChars s.toList)

def isBlank (s : String) : Bool :=
  s.toList.all isBlankChar

/-- The characters that end a line, a carriage return with its line feed counting once. -/
def isLineEnd (c : Char) : Bool :=
  Ranges.has [(10, 13), (28, 30), (133, 133), (8232, 8233)] c

/-- The line begun so far, given in reverse, and the lines that follow it. -/
def linesFrom (line : List Char) : List Char → List (List Char)
  | [] => if line.isEmpty then [] else [line.reverse]
  | '\r' :: '\n' :: rest => line.reverse :: linesFrom [] rest
  | c :: rest =>
      if isLineEnd c then line.reverse :: linesFrom [] rest else linesFrom (c :: line) rest

/-- The lines of a text without their ends; a last line needs no end. -/
def lines (s : String) : List String :=
  (linesFrom [] s.toList).map String.ofList

end Wayfare.Text
