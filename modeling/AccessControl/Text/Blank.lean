/-!
Blank characters are those with the Unicode property White_Space. Trimming removes them from both ends
of a text and nothing else.
-/

namespace AccessControl

def blanks : List Char :=
  ['\t', '\n', '\x0b', '\x0c', '\r', ' ', '\u0085', '\u00a0', '\u1680', '\u2000', '\u2001', '\u2002', '\u2003',
   '\u2004', '\u2005', '\u2006', '\u2007', '\u2008', '\u2009', '\u200a', '\u2028', '\u2029', '\u202f', '\u205f',
   '\u3000']

def isBlank (c : Char) : Bool := blanks.contains c

namespace Text

def trimFront (cs : List Char) : List Char := cs.dropWhile isBlank

def trimBack (cs : List Char) : List Char := (cs.reverse.dropWhile isBlank).reverse

def trim (cs : List Char) : List Char := trimBack (trimFront cs)

end Text

/-- A text is blank when it holds no character but blanks. -/
def blankText (s : String) : Bool := s.toList.all isBlank

end AccessControl
