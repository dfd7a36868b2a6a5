import RtuStation.Pattern.Basic

/-!
# Modes and escapes

How the characters of a written pattern are understood. Flags in the pattern change the mode for what
follows. At first the characters of all scripts are told apart, but there is no table of their classes
and cases: a pattern that would need one is not well formed. With scripts turned off only ASCII is
told apart, which has classes and cases, but a set cannot hold what lies beyond.

Every reader takes the rest of the pattern and gives what it has read with what is left, or nothing
if the pattern is not well formed.
-/

namespace RtuStation

structure PatternMode where
  caseless : Bool := false
  multiline : Bool := false
  dotAll : Bool := false
  /-- A carriage return also ends lines. -/
  returns : Bool := false
  /-- The characters of all scripts can be told apart. -/
  scripts : Bool := true
  /-- Blanks and comments in the pattern mean nothing. -/
  spaced : Bool := false
  deriving DecidableEq, Repr

/-- A part of a pattern that is read as one character, or in the place of one. -/
inductive Atom where
  | char (c : Char)
  | set (among : CharSet)
  | anchor (anchor : Anchor)
  deriving DecidableEq, Repr

def withoutComments (commented : Bool) : List Char → List Char
  | [] => []
  | c :: later =>
    if commented then withoutComments (c != '\n') later
    else if c = '#' then withoutComments true later
    else if isBlank c then withoutComments false later
    else c :: later

def isHexDigit (c : Char) : Bool :=
  CharSet.contains (CharSet.digits ++ [(0x41, 0x46), (0x61, 0x66)]) c

def digitsValue (base : Nat) (ds : List Char) : Nat :=
  ds.foldl (fun n c => base * n + if c.isDigit then c.toNat - 48 else c.toLower.toNat - 87) 0

def charOfCode? (code : Nat) : Option Char :=
  if code.isValidChar then some (Char.ofNat code) else none

namespace PatternMode

def skip (m : PatternMode) (cs : List Char) : List Char :=
  if m.spaced then withoutComments false cs else cs

def span (m : PatternMode) (kind : Char → Bool) : Nat → List Char → List Char × List Char
  | n + 1, c :: later =>
    if kind c then
      let (run, rest) := m.span kind n (m.skip later)
      (c :: run, rest)
    else ([], c :: later)
  | _, cs => ([], cs)

/-! ### Flags -/

def turn? (m : PatternMode) (flag : Char) (on : Bool) : Option PatternMode :=
  match flag with
  | 'i' => some { m with caseless := on }
  | 'm' => some { m with multiline := on }
  | 's' => some { m with dotAll := on }
  | 'R' => some { m with returns := on }
  | 'u' => some { m with scripts := on }
  | 'x' => some { m with spaced := on }
  | 'U' | '-' => some m
  | _ => none

/-- Flags up to what ends them; those behind a minus are turned off. `seen` are the flags read, the
last first. None stands twice, and something follows a minus. -/
def flags? (m : PatternMode) (seen : List Char) :
    List Char → Option (PatternMode × List Char × List Char)
  | [] => none
  | c :: later =>
    if c = ')' ∨ c = ':' then
      if seen.head? = some '-' then none else some (m, seen, c :: later)
    else if seen.contains c then none
    else
      match m.turn? c (!seen.contains '-') with
      | some m => m.flags? (c :: seen) later
      | none => none

/-! ### Sets in a mode -/

/-- A set as it is understood: it may need letters in both cases. -/
def set? (m : PatternMode) (s : CharSet) : Option CharSet :=
  if m.caseless then if m.scripts then none else some s.folded else some s

def compl? (m : PatternMode) (s : CharSet) : Option CharSet :=
  if m.scripts then some s.compl else none

def dot? (m : PatternMode) : Option CharSet :=
  m.compl? <|
    if m.dotAll then [] else if m.returns then .single '\n' ++ .single '\r' else .single '\n'

def start (m : PatternMode) : Anchor :=
  if m.multiline then if m.returns then .returnStart else .lineStart else .textStart

def stop (m : PatternMode) : Anchor :=
  if m.multiline then if m.returns then .returnEnd else .lineEnd else .textEnd

/-! ### Escapes -/

/-- A character given by its code: some digits, or any number of them in braces. Two digits stand
for an octet, which is a character only if it is ASCII or scripts are in play. -/
def code? (m : PatternMode) (length : Nat) (cs : List Char) : Option (Atom × List Char) :=
  match m.skip cs with
  | '\x7b' :: cs =>
    let (ds, rest) := m.span isHexDigit cs.length (m.skip cs)
    match rest with
    | '\x7d' :: rest =>
      if ds.isEmpty then none else (charOfCode? (digitsValue 16 ds)).map (.char ·, rest)
    | _ => none
  | cs =>
    let (ds, rest) := m.span isHexDigit length cs
    let code := digitsValue 16 ds
    if ds.length < length ∨ (length = 2 ∧ 0x80 ≤ code ∧ !m.scripts) then none
    else (charOfCode? code).map (.char ·, rest)

def wordAnchors : List (String × Anchor) :=
  [("start", .wordStart), ("end", .wordEnd), ("start-half", .wordFreeBefore),
    ("end-half", .wordFreeBehind)]

def isNameChar (c : Char) : Bool := c.isAlpha || c == '-'

/-- An anchor at words, which may have its name in braces; braces with something else in them do not
belong to it. -/
def wordAnchor? (m : PatternMode) (cs : List Char) : Option (Atom × List Char) :=
  let plain := some (Atom.anchor .wordEdge, cs)
  match cs with
  | '\x7b' :: later =>
    match m.span isNameChar later.length (m.skip later) with
    | ([], _) => plain
    | (name, '\x7d' :: rest) =>
      (wordAnchors.lookup (String.ofList name)).map (.anchor ·, rest)
    | _ => none
  | _ => plain

/-- A class of characters, which scripts have no table for. -/
def class? (m : PatternMode) (s : CharSet) (rest : List Char) : Option (Atom × List Char) :=
  if m.scripts then none else some (.set s, rest)

/-- What is written behind a backslash. Signs stand for themselves. -/
def escape? (m : PatternMode) : List Char → Option (Atom × List Char)
  | [] => none
  | c :: rest =>
    match c with
    | 'x' => m.code? 2 rest
    | 'u' => m.code? 4 rest
    | 'U' => m.code? 8 rest
    | 'd' => m.class? .digits rest
    | 's' => m.class? .spaces rest
    | 'w' => m.class? .wordChars rest
    | 'a' => some (.char '\x07', rest)
    | 'f' => some (.char '\x0c', rest)
    | 't' => some (.char '\t', rest)
    | 'n' => some (.char '\n', rest)
    | 'r' => some (.char '\r', rest)
    | 'v' => some (.char '\x0b', rest)
    | 'A' => some (.anchor .textStart, rest)
    | 'z' => some (.anchor .textEnd, rest)
    | 'b' => m.wordAnchor? rest
    | 'B' => some (.anchor .wordInside, rest)
    | '<' => some (.anchor .wordStart, rest)
    | '>' => some (.anchor .wordEnd, rest)
    | _ => if c.isAlphanum ∨ 0x80 ≤ c.toNat then none else some (.char c, rest)

end PatternMode
end RtuStation
