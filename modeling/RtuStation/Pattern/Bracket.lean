import RtuStation.Pattern.Mode

/-!
# Sets in brackets

A set of characters is written in brackets: characters, ranges, escapes, classes of ASCII by name and
sets within sets follow each other, and a caret in front negates. Between two sets, `&&` leaves what
both hold, `--` what only the first one holds, and `~~` what one of them holds; they group to the left
and may have nothing on a side.
-/

namespace RtuStation

/-- Part of a set in brackets: its characters, and how deep sets within it are nested. -/
structure SetPart where
  chars : CharSet := []
  depth : Nat := 0
  items : Nat := 0
  deriving DecidableEq, Repr

inductive SetJoin where
  | both
  | onlyFirst
  | notBoth
  deriving DecidableEq, Repr

def SetJoin.apply (j : SetJoin) (s t : CharSet) : CharSet :=
  match j with
  | both => s.inter t
  | onlyFirst => s.minus t
  | notBoth => s.symmDiff t

namespace SetPart

def add (p : SetPart) (chars : CharSet) (depth : Nat) : SetPart :=
  ⟨p.chars ++ chars, max p.depth depth, p.items + 1⟩

/-- How deep a part is nested when it is complete: several items are one level more. -/
def level (p : SetPart) : Nat := if 2 ≤ p.items then p.depth + 1 else p.depth

def behind (p : SetPart) : Option (SetJoin × SetPart) → SetPart
  | none => { p with depth := p.level, items := 1 }
  | some (join, first) => ⟨join.apply first.chars p.chars, max first.depth p.level + 1, 1⟩

end SetPart

namespace PatternMode

def setAtom? (m : PatternMode) : List Char → Option (Atom × List Char)
  | [] => none
  | '\\' :: rest => m.escape? rest
  | c :: rest => some (.char c, rest)

def range? (m : PatternMode) (low high : Char) : Option CharSet :=
  if high < low ∨ (!m.scripts ∧ 0x80 ≤ high.toNat) then none
  else m.set? [(low.toNat, high.toNat)]

def minuses (m : PatternMode) (cs : List Char) : List Char × List Char :=
  m.span (· == '-') cs.length cs

/-- The start of a set behind its bracket: whether it is negated, and the characters that stand for
themselves because they come first. -/
def opening? (m : PatternMode) (cs : List Char) : Option (Bool × SetPart × List Char) := do
  let (negated, cs) :=
    match m.skip cs with
    | '^' :: later => (true, m.skip later)
    | cs => (false, cs)
  let (first, rest) :=
    match m.minuses cs with
    | ([], ']' :: later) => ([']'], m.skip later)
    | found => found
  let mut part : SetPart := {}
  for c in first do
    part := part.add (← m.set? (.single c)) 0
  return (negated, part, rest)

def namedClass? (cs : List Char) : Option (CharSet × Bool × List Char) :=
  match cs with
  | ':' :: later =>
    let (negated, later) := match later with
      | '^' :: later => (true, later)
      | _ => (false, later)
    match later.dropWhile (· != ':') with
    | ':' :: ']' :: rest =>
      (CharSet.named.lookup (String.ofList (later.takeWhile (· != ':')))).map (·, negated, rest)
    | _ => none
  | _ => none

def negated? (m : PatternMode) (negated : Bool) (s : CharSet) : Option CharSet :=
  if negated then m.compl? s else some s

/-- What follows a minus sign behind a character, as far as it decides whether the sign stands for a
range. -/
def behindMinus (m : PatternMode) (cs : List Char) : Option Char :=
  if m.spaced then
    match cs.dropWhile isBlank with
    | '#' :: later => (later.dropWhile isBlank).head?
    | later => later.head?
  else cs.head?

/-- An item of a set that is no set in brackets: a range, a character or an escape. -/
def item? (m : PatternMode) (cs : List Char) : Option (CharSet × List Char) := do
  let (first, rest) ← m.setAtom? cs
  let alone : Option (CharSet × List Char) :=
    match first with
    | .char c => (m.range? c c).map (·, m.skip rest)
    | .set s => some (s, m.skip rest)
    | .anchor _ => none
  match m.skip rest with
  | '-' :: later =>
    if m.behindMinus later = some ']' ∨ m.behindMinus later = some '-' then alone
    else
      match first, ← m.setAtom? (m.skip later) with
      | .char low, (.char high, rest) => (m.range? low high).map (·, rest)
      | _, _ => none
  | _ => alone

/-- The items of a set up to its closing bracket. `waiting` is a set that is to be joined, `part`
what has been read of the next one. There are at most as many steps as characters. -/
def items? (m : PatternMode) :
    Nat → Option (SetJoin × SetPart) → SetPart → List Char → Option (SetPart × List Char)
  | 0, _, _, _ => none
  | steps + 1, waiting, part, cs =>
    match m.skip cs with
    | [] => none
    | ']' :: rest => some (part.behind waiting, rest)
    | '&' :: '&' :: rest => m.items? steps (some (.both, part.behind waiting)) {} rest
    | '-' :: '-' :: rest => m.items? steps (some (.onlyFirst, part.behind waiting)) {} rest
    | '~' :: '~' :: rest => m.items? steps (some (.notBoth, part.behind waiting)) {} rest
    | '[' :: rest =>
      match namedClass? rest with
      | some (s, negated, rest) => do
        let s ← m.negated? negated (← m.set? s)
        m.items? steps waiting (part.add s 0) rest
      | none => do
        let (negated, first, rest) ← m.opening? rest
        let (inner, rest) ← m.items? steps none first rest
        m.items? steps waiting (part.add (← m.negated? negated inner.chars) (inner.depth + 1)) rest
    | cs => do
      let (s, rest) ← m.item? cs
      m.items? steps waiting (part.add s 0) rest

def bracket? (m : PatternMode) (cs : List Char) : Option (CharSet × Nat × List Char) := do
  let (negated, first, rest) ← m.opening? cs
  let (inner, rest) ← m.items? (rest.length + 1) none first rest
  return (← m.negated? negated inner.chars, inner.depth + 1, rest)

end PatternMode
end RtuStation
