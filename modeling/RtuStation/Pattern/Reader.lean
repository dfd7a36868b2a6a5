import RtuStation.Pattern.Bracket

/-!
# Reading patterns

A written pattern is a row of items, with `|` between alternatives: characters, sets, anchors and
groups, each of which may be repeated. Groups can have names, or change the mode.

`Pattern.ofText?` reads a pattern. It refuses one that is not well formed, that is nested too deep, or
that would take up too much memory.
-/

namespace RtuStation

structure PatternPiece where
  pattern : Pattern
  depth : Nat := 0
  /-- How many octets it takes up. -/
  weight : Nat
  /-- Whether it can be repeated. -/
  solid : Bool := true
  known : Bool := true
  deriving DecidableEq, Repr

namespace PatternPiece

def stateWeight : Nat := 32

/-- How many octets one way on from a state takes up, beyond the first one. -/
def wayWeight : Nat := 4

def scriptsWeight : Nat := 1000

def maxWeight : Nat := 10485760

def maxDepth : Nat := 250

def frameWeight : Nat := 5 * stateWeight + 2 * wayWeight

def empty : PatternPiece := { pattern := .empty, weight := stateWeight }

def flags : PatternPiece := { empty with solid := false }

def ofChar (m : PatternMode) (c : Char) : Option PatternPiece :=
  (m.set? (.single c)).map fun s =>
    { pattern := .char s, weight := c.utf8Size * stateWeight }

def ofSet (s : CharSet) (depth : Nat) : PatternPiece where
  pattern := .char s
  depth
  weight :=
    if s.all fun (_, high) => high < 0x80 then 2 * (stateWeight + wayWeight * s.length)
    else scriptsWeight

/-- An anchor. At the ends of words, scripts must be out of play. -/
def ofAnchor (m : PatternMode) (a : Anchor) : PatternPiece where
  pattern := .anchor a
  weight := stateWeight
  known := !m.scripts || !a.isAtWord

def ofAtom (m : PatternMode) : Atom → Option PatternPiece
  | .char c => ofChar m c
  | .set s => some (ofSet s 0)
  | .anchor a => some (ofAnchor m a)

def row : List PatternPiece → PatternPiece
  | [] => empty
  | [p] => p
  | ps =>
    { pattern := ps.foldl (fun later p => .seq p.pattern later) .empty
      depth := (ps.map depth).foldl max 0 + 1
      weight := ps.foldr (fun p sum => p.weight + sum) 0
      known := ps.all known }

def choice : List PatternPiece → PatternPiece
  | [] => empty
  | [p] => p
  | p :: ps =>
    { pattern := ps.foldl (fun earlier p => .either earlier p.pattern) p.pattern
      depth := ((p :: ps).map depth).foldl max 0 + 1
      weight := (p :: ps).foldr (fun p sum => p.weight + wayWeight + sum) (2 * stateWeight)
      known := (p :: ps).all known }

def grouped (p : PatternPiece) (named : Bool) : PatternPiece :=
  { p with
    depth := p.depth + 1
    weight := p.weight + if named then 2 * stateWeight else 0
    solid := true }

def repeatedWeight (weight least : Nat) (most : Option Nat) : Nat :=
  let choice := stateWeight + 2 * wayWeight
  match least, most with
  | 0, none => weight + choice
  | least, none => least * weight + choice
  | 0, some 1 => weight + choice + stateWeight
  | least, some most =>
    least * weight + (most - least) * (weight + choice) +
      if 0 < least ∧ least = most then 0 else stateWeight

/-- A piece some times in a row. What fits the empty text alone need not come twice. -/
def repeated (p : PatternPiece) (least : Nat) (most : Option Nat) : PatternPiece :=
  let (least, most) :=
    if p.pattern.isNarrow then (min least 1, some (most.elim 1 (min 1))) else (least, most)
  if most = some 0 then { empty with depth := p.depth + 1 }
  else
    { p with
      pattern := .repeated p.pattern least most
      depth := p.depth + 1
      weight := repeatedWeight p.weight least most }

end PatternPiece

/-- What has been read of the inside of a group. -/
structure PatternDraft where
  /-- The complete alternatives, the last first. -/
  branches : List PatternPiece := []
  /-- The items of the alternative that is being read, the last first. -/
  items : List PatternPiece := []
  deriving DecidableEq, Repr

namespace PatternDraft

def add (d : PatternDraft) (p : PatternPiece) : PatternDraft := { d with items := p :: d.items }

/-- A draft where an alternative is complete. -/
def branch (d : PatternDraft) : PatternDraft := ⟨.row d.items :: d.branches, []⟩

def piece (d : PatternDraft) : PatternPiece := .choice d.branch.branches.reverse

/-- A draft with the last item repeated, if there is one that can be. -/
def repeatLast? (d : PatternDraft) (least : Nat) (most : Option Nat) : Option PatternDraft :=
  match d.items with
  | p :: earlier =>
    if p.solid then some { d with items := p.repeated least most :: earlier } else none
  | [] => none

end PatternDraft

/-- What stands at the start of a group: flags alone, or flags for what the group holds. -/
inductive GroupHead where
  | flags (mode : PatternMode)
  | inside (mode : PatternMode) (named : Bool)
  deriving DecidableEq, Repr

abbrev GroupNames := List (List Char)

def startsName (c : Char) : Bool :=
  c == '_' || c.isAlpha || (0x80 ≤ c.toNat && !CharSet.signs.contains c)

def continuesName (c : Char) : Bool :=
  startsName c || c.isDigit || c == '.' || c == '[' || c == ']'

def groupName? (cs : List Char) : Option (List Char × List Char) :=
  let name := cs.takeWhile (· != '>')
  match cs.dropWhile (· != '>') with
  | _ :: rest =>
    if (name.head?.any startsName) ∧ name.tail.all continuesName then some (name, rest) else none
  | [] => none

def maxTimes : Nat := Nat.pow 2 32 - 1

namespace PatternMode

/-- The start of a group behind its parenthesis. -/
def head? (m : PatternMode) (names : GroupNames) (cs : List Char) :
    Option (GroupHead × GroupNames × List Char) :=
  let named (cs : List Char) := do
    let (name, rest) ← groupName? cs
    if names.contains name then none else some (GroupHead.inside m true, name :: names, rest)
  match m.skip cs with
  | '?' :: 'P' :: '<' :: rest => named rest
  | '?' :: '<' :: rest => named rest
  | '?' :: rest =>
    match m.flags? [] rest with
    | some (m, _, ':' :: rest) => some (.inside m false, names, rest)
    | some (m, _ :: _, ')' :: rest) => some (.flags m, names, rest)
    | _ => none
  | rest => some (.inside m true, names, rest)

/-- A count of repetitions; blanks may stand around it. -/
def count? (m : PatternMode) (cs : List Char) : Option (Nat × List Char) :=
  let (ds, rest) := m.span Char.isDigit cs.length (cs.dropWhile isBlank)
  let n := digitsValue 10 ds
  if ds.isEmpty ∨ maxTimes < n then none else some (n, m.skip (rest.dropWhile isBlank))

/-- The counts of a repetition behind the opening brace. -/
def counts? (m : PatternMode) (cs : List Char) : Option (Nat × Option Nat × List Char) := do
  let (least, rest) ← m.count? (m.skip cs)
  let (most, rest) ←
    match rest with
    | ',' :: rest =>
      match m.skip rest with
      | '\x7d' :: rest => some (none, '\x7d' :: rest)
      | rest => do
        let (most, rest) ← m.count? rest
        some (some most, rest)
    | rest => some (some least, rest)
  match rest with
  | '\x7d' :: rest =>
    if most.any (· < least) then none else some (least, most, m.skip rest)
  | _ => none

/-- A pattern without the question mark that can stand behind a repetition. -/
def withoutQuestion : List Char → List Char
  | '?' :: rest => rest
  | rest => rest

def primitive? (m : PatternMode) (cs : List Char) : Option (PatternPiece × List Char) :=
  match cs with
  | [] => none
  | '.' :: rest => m.dot?.map fun s => (.ofSet s 0, rest)
  | '^' :: rest => some (.ofAnchor m m.start, rest)
  | '$' :: rest => some (.ofAnchor m m.stop, rest)
  | '\\' :: rest => do
    let (atom, rest) ← m.escape? rest
    return (← PatternPiece.ofAtom m atom, rest)
  | c :: rest => (PatternPiece.ofChar m c).map (·, rest)

/-- Reads a pattern, or the inside of a group up to its closing parenthesis. There are at most as
many steps as characters. -/
def pieces? (m : PatternMode) (grouped : Bool) :
    Nat → GroupNames → PatternDraft → List Char →
      Option (PatternPiece × GroupNames × List Char)
  | 0, _, _, _ => none
  | steps + 1, names, draft, cs =>
    match m.skip cs with
    | [] => if grouped then none else some (draft.piece, names, [])
    | ')' :: rest => if grouped then some (draft.piece, names, rest) else none
    | '|' :: rest => m.pieces? grouped steps names draft.branch rest
    | '(' :: rest =>
      match m.head? names rest with
      | some (.flags m, names, rest) => m.pieces? grouped steps names (draft.add .flags) rest
      | some (.inside inner named, names, rest) => do
        let (piece, names, rest) ← inner.pieces? true steps names {} rest
        m.pieces? grouped steps names (draft.add (piece.grouped named)) rest
      | none => none
    | '[' :: rest => do
      let (s, depth, rest) ← m.bracket? rest
      m.pieces? grouped steps names (draft.add (.ofSet s depth)) rest
    | '?' :: rest => do
      m.pieces? grouped steps names (← draft.repeatLast? 0 (some 1)) (withoutQuestion rest)
    | '*' :: rest => do
      m.pieces? grouped steps names (← draft.repeatLast? 0 none) (withoutQuestion rest)
    | '+' :: rest => do
      m.pieces? grouped steps names (← draft.repeatLast? 1 none) (withoutQuestion rest)
    | '\x7b' :: rest => do
      let (least, most, rest) ← m.counts? rest
      m.pieces? grouped steps names (← draft.repeatLast? least most) (withoutQuestion rest)
    | cs => do
      let (piece, rest) ← m.primitive? cs
      m.pieces? grouped steps names (draft.add piece) rest

end PatternMode

def Pattern.ofText? (text : List Char) : Option Pattern := do
  let (piece, _) ← PatternMode.pieces? {} false (text.length + 1) [] {} text
  if piece.known ∧ piece.depth ≤ PatternPiece.maxDepth ∧
      piece.weight + PatternPiece.frameWeight ≤ PatternPiece.maxWeight then
    some piece.pattern
  else none

end RtuStation
