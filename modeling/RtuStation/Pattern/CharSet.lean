/-!
# Sets of characters

A set of characters is a list of ranges of character codes, which may overlap. Sets are joined, cut
and negated range by range; `CharSet.has` is what a set means.
-/

namespace RtuStation

/-- A set of characters: ranges of codes, with both ends. -/
abbrev CharSet := List (Nat × Nat)

namespace CharSet

def has (s : CharSet) (code : Nat) : Bool := s.any fun (low, high) => low ≤ code && code ≤ high

def contains (s : CharSet) (c : Char) : Bool := s.has c.toNat

def single (c : Char) : CharSet := [(c.toNat, c.toNat)]

def maxCode : Nat := 0x10ffff

def full : CharSet := [(0, maxCode)]

def inter (s t : CharSet) : CharSet :=
  s.flatMap fun (a, b) => t.filterMap fun (c, d) =>
    if max a c ≤ min b d then some (max a c, min b d) else none

def cut (s : CharSet) (low high : Nat) : CharSet :=
  s.flatMap fun (a, b) =>
    (if a < low then [(a, min b (low - 1))] else []) ++
      (if high < b then [(max a (high + 1), b)] else [])

def minus (s t : CharSet) : CharSet := t.foldl (fun left (low, high) => cut left low high) s

def symmDiff (s t : CharSet) : CharSet := s.minus t ++ t.minus s

def compl (s : CharSet) : CharSet := full.minus s

/-- A set with its codes moved up and down. -/
def moved (s : CharSet) (up down : Nat) : CharSet :=
  s.map fun (low, high) => (low + up - down, high + up - down)

/-! ### Sets with a name -/

def digits : CharSet := [(0x30, 0x39)]

def capitals : CharSet := [(0x41, 0x5a)]

def smalls : CharSet := [(0x61, 0x7a)]

def letters : CharSet := capitals ++ smalls

def spaces : CharSet := [(0x09, 0x0d), (0x20, 0x20)]

def wordChars : CharSet := digits ++ letters ++ [(0x5f, 0x5f)]

/-- White space of any script. -/
def blanks : CharSet :=
  [(0x09, 0x0d), (0x20, 0x20), (0x85, 0x85), (0xa0, 0xa0), (0x1680, 0x1680), (0x2000, 0x200a),
    (0x2028, 0x2029), (0x202f, 0x202f), (0x205f, 0x205f), (0x3000, 0x3000)]

/-- Blocks of signs beyond ASCII that are neither letters nor digits. -/
def signs : CharSet :=
  [(0x80, 0xa9), (0xab, 0xb1), (0xb4, 0xb4), (0xb6, 0xb8), (0xbb, 0xbb), (0xbf, 0xbf), (0xd7, 0xd7),
    (0xf7, 0xf7), (0x300, 0x344), (0x2000, 0x206f), (0x20a0, 0x20ff), (0x2190, 0x23ff),
    (0x2500, 0x2775), (0x2794, 0x2bff), (0x3000, 0x3004), (0x3008, 0x3020), (0xd800, 0xf8ff),
    (0xfe00, 0xfe6f), (0xff01, 0xff0f), (0x1f000, 0x1f0ff), (0x1f200, 0x1faff), (0xe0000, 0x10ffff)]

def named : List (String × CharSet) :=
  [("alnum", digits ++ letters), ("alpha", letters), ("ascii", [(0x00, 0x7f)]),
    ("blank", [(0x09, 0x09), (0x20, 0x20)]), ("cntrl", [(0x00, 0x1f), (0x7f, 0x7f)]),
    ("digit", digits), ("graph", [(0x21, 0x7e)]), ("lower", smalls), ("print", [(0x20, 0x7e)]),
    ("punct", [(0x21, 0x2f), (0x3a, 0x40), (0x5b, 0x60), (0x7b, 0x7e)]), ("space", spaces),
    ("upper", capitals), ("word", wordChars),
    ("xdigit", digits ++ [(0x41, 0x46), (0x61, 0x66)])]

/-- A set with the ASCII letters of it in both cases. -/
def folded (s : CharSet) : CharSet :=
  s ++ ((s.inter capitals).moved 0x20 0 ++ (s.inter smalls).moved 0 0x20)

end CharSet

def isBlank (c : Char) : Bool := CharSet.blanks.contains c

end RtuStation
