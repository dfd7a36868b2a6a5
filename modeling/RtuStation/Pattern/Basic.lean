import RtuStation.Pattern.CharSet

/-!
# Patterns

A pattern tells what a text must hold somewhere: characters out of sets, in order, with choices and
repetitions, and anchors, which bear on the place between two characters.

A pattern moves over a text by sets of places. The places of a text of `n` characters are its `n + 1`
gaps, a set of them is a list of as many truth values, and `Pattern.ends` leads from the places where
something starts to those where it can end. `Pattern.occursIn` asks whether any place is reached from
any other.
-/

namespace RtuStation

/-- A condition on a place in a text. -/
inductive Anchor where
  | textStart
  | textEnd
  | lineStart
  | lineEnd
  /-- The start of a line, where a carriage return also ends lines. -/
  | returnStart
  /-- The end of a line, where a carriage return also ends lines. -/
  | returnEnd
  | wordEdge
  | wordInside
  | wordStart
  | wordEnd
  | wordFreeBefore
  | wordFreeBehind
  deriving DecidableEq, Repr

def isWordChar (c : Option Char) : Bool := c.any CharSet.wordChars.contains

/-- Whether an anchor holds between two characters; at the ends of a text one is missing. -/
def Anchor.holds (before behind : Option Char) : Anchor → Bool
  | textStart => before.isNone
  | textEnd => behind.isNone
  | lineStart => before.isNone || before == some '\n'
  | lineEnd => behind.isNone || behind == some '\n'
  | returnStart =>
    before.isNone || before == some '\n' || (before == some '\r' && behind != some '\n')
  | returnEnd =>
    behind.isNone || behind == some '\r' || (behind == some '\n' && before != some '\r')
  | wordEdge => isWordChar before != isWordChar behind
  | wordInside => isWordChar before == isWordChar behind
  | wordStart => !isWordChar before && isWordChar behind
  | wordEnd => isWordChar before && !isWordChar behind
  | wordFreeBefore => !isWordChar before
  | wordFreeBehind => !isWordChar behind

def Anchor.isAtWord : Anchor → Bool
  | textStart | textEnd | lineStart | lineEnd | returnStart | returnEnd => false
  | _ => true

/-- What a text must hold. -/
inductive Pattern where
  | empty
  | char (among : CharSet)
  | anchor (anchor : Anchor)
  | seq (first second : Pattern)
  | either (first second : Pattern)
  /-- A pattern some times in a row; without `most`, any number from `least` on. -/
  | repeated (part : Pattern) (least : Nat) (most : Option Nat)
  deriving DecidableEq, Repr

abbrev Places := List Bool

namespace Places

def union (a b : Places) : Places := a.zipWith (· || ·) b

def neighbours (before : Option Char) : List Char → List (Option Char × Option Char)
  | [] => [(before, none)]
  | c :: later => (before, some c) :: neighbours (some c) later

def holding (text : List Char) (anchor : Anchor) (places : Places) : Places :=
  places.zipWith (fun here (before, behind) => here && anchor.holds before behind)
    (neighbours none text)

def behind (text : List Char) (among : CharSet) (places : Places) : Places :=
  false :: places.zipWith (fun here c => here && among.contains c) text

end Places

/-- Applies a function `n` times, but not further once it changes nothing. -/
def settle {α : Type} [DecidableEq α] (f : α → α) : Nat → α → α
  | 0, x => x
  | n + 1, x => if f x = x then x else settle f n (f x)

namespace Pattern

/-- The places where a pattern can end that starts at some places. More repetitions than there are
places lead no further. -/
def ends (text : List Char) : Pattern → Places → Places
  | empty, places => places
  | char among, places => places.behind text among
  | anchor a, places => places.holding text a
  | seq p q, places => ends text q (ends text p places)
  | either p q, places => (ends text p places).union (ends text q places)
  | repeated p least most, places =>
    let limit := text.length + 1
    let spare := most.elim limit fun most => min (most - least) limit
    settle (fun reached => reached.union (ends text p reached)) spare
      (settle (ends text p) (min least limit) places)

def occursIn (p : Pattern) (text : List Char) : Bool :=
  (p.ends text (List.replicate (text.length + 1) true)).any id

/-- Whether nothing but the empty text fits a pattern. -/
def isNarrow : Pattern → Bool
  | empty | anchor _ => true
  | char _ => false
  | seq p q | either p q => p.isNarrow && q.isNarrow
  | repeated p _ _ => p.isNarrow

end Pattern
end RtuStation
