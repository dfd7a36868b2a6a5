import RtuStation.Console.Filter
import RtuStation.Console.Plain

/-!
# Records

How notices are written to a stream of text. A notice with a level becomes a record: a head with the
level and the origin, and the text, whose further lines are indented so that none of them is taken
for a record. Control sequences are taken out of each record. Advice is a line of its own.

`Notice.lines` reads such a stream back: the lines that start a record, and the advice.
-/

namespace RtuStation

def indented : List Char → List Char
  | [] => []
  | '\n' :: later => '\n' :: ' ' :: ' ' :: ' ' :: ' ' :: indented later
  | c :: later => c :: indented later

namespace Notice

def head (n : Notice) : String :=
  match n.level?, n.origin? with
  | some level, some origin => "[" ++ level.name ++ " " ++ origin ++ "] "
  | _, _ => ""

/-- The text of a notice as it is written, with the end of its last line. A control sequence that is
still open can take the end of the line with it. -/
def body (n : Notice) : List Char :=
  match n.level? with
  | some _ => plainText (indented n.text.toList ++ ['\n'])
  | none => n.text.toList ++ ['\n']

def record (n : Notice) : String := n.head ++ String.ofList n.body

inductive LineKind where
  | record (level : Level)
  | advice
  | further
  deriving DecidableEq, Repr

def lineKind (n : Notice) : LineKind :=
  match n.level? with
  | some level => .record level
  | none => .advice

def lineText (cs : List Char) : String :=
  String.ofList (if cs.getLast? = some '\r' then cs.dropLast else cs)

/-- The lines that a text and further pieces make, with an end of line between any two; the second
part is the line that has not ended, if there is one. -/
def addPieces (kind : LineKind) (text : List Char) :
    List (List Char) → List (LineKind × List Char) × Option (LineKind × List Char)
  | [] => ([], if kind = .further ∧ text = [] then none else some (kind, text))
  | piece :: later =>
    let (lines, rest) := addPieces .further piece later
    ((kind, text) :: lines, rest)

/-- The lines of a stream to which notices are written, behind a line that has not ended. -/
def streamLines (rest : Option (LineKind × List Char)) :
    List Notice → List (LineKind × List Char)
  | [] => rest.toList
  | n :: later =>
    let (kind, before) := match rest with
      | some (kind, text) => (kind, text ++ n.head.toList)
      | none => (n.lineKind, [])
    match n.body.splitOn '\n' with
    | [] => streamLines rest later
    | piece :: pieces =>
      let (lines, rest) := addPieces kind (before ++ piece) pieces
      lines ++ streamLines rest later

/-- The records and the advice that are found in a stream to which notices are written, with the
first line of each. -/
def lines (notices : List Notice) : List (Option Level × String) :=
  (streamLines none notices).filterMap fun (kind, text) =>
    match kind with
    | .record level => some (some level, lineText text)
    | .advice => some (none, lineText text)
    | .further => none

end Notice
end RtuStation
