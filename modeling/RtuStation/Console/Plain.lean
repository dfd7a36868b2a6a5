/-!
# Plain text

Texts can hold control sequences, by which terminals are told to do something other than to show
characters. Where nobody but a program reads, they are taken out: escape sequences, commands and
strings for the terminal, and all control characters but white space.

A character is read in one of two ways. While text is shown it is plain as long as it stands for
itself; in between, what it means depends on the sequence it belongs to. White space that a
sequence lets through makes the text go on, and the sequence is taken up again behind it.
-/

namespace RtuStation

inductive SequenceState where
  | ground
  | escape
  | escapeIntermediate
  | controlEntry
  | controlParameter
  | controlIntermediate
  | controlIgnored
  | deviceEntry
  | deviceParameter
  | deviceIntermediate
  | deviceData
  | deviceIgnored
  | command
  | string
  deriving DecidableEq, Repr

namespace SequenceState

def within (low high code : Nat) : Bool := low ≤ code && code ≤ high

/-- The state to which an ASCII character leads, if it leads anywhere. -/
def next? (s : SequenceState) (c : Char) : Option SequenceState :=
  let code := c.toNat
  if code = 0x18 ∨ code = 0x1a then some ground
  else if code = 0x1b then some escape
  else
    match s with
    | ground | deviceData | deviceIgnored | string => none
    | escape =>
      if within 0x20 0x2f code then some escapeIntermediate
      else
        match c with
        | 'P' => some deviceEntry
        | 'X' | '^' | '_' => some string
        | '[' => some controlEntry
        | ']' => some command
        | _ => if within 0x30 0x7e code then some ground else none
    | escapeIntermediate => if within 0x30 0x7e code then some ground else none
    | controlEntry =>
      if within 0x20 0x2f code then some controlIntermediate
      else if within 0x30 0x3f code then some controlParameter
      else if within 0x40 0x7e code then some ground
      else none
    | controlParameter =>
      if within 0x20 0x2f code then some controlIntermediate
      else if within 0x3c 0x3f code then some controlIgnored
      else if within 0x40 0x7e code then some ground
      else none
    | controlIntermediate =>
      if within 0x30 0x3f code then some controlIgnored
      else if within 0x40 0x7e code then some ground
      else none
    | controlIgnored => if within 0x40 0x7e code then some ground else none
    | deviceEntry =>
      if within 0x20 0x2f code then some deviceIntermediate
      else if within 0x30 0x3f code then some deviceParameter
      else if within 0x40 0x7e code then some deviceData
      else none
    | deviceParameter =>
      if within 0x20 0x2f code then some deviceIntermediate
      else if within 0x3c 0x3f code then some deviceIgnored
      else if within 0x40 0x7e code then some deviceData
      else none
    | deviceIntermediate =>
      if within 0x30 0x3f code then some deviceIgnored
      else if within 0x40 0x7e code then some deviceData
      else none
    | command => if code = 0x07 then some ground else none

/-- The octet that ends a string, also within a character that takes several octets. -/
def terminator : UInt8 := 0x9c

/-- The state after a character beyond ASCII within a sequence. -/
def nextBeyond (s : SequenceState) (c : Char) : SequenceState :=
  match s with
  | deviceData | deviceIgnored | string =>
    if (String.utf8EncodeChar c).contains terminator then ground else s
  | _ => s

def isSpace (c : Char) : Bool := c == ' ' || c == '\t' || c == '\n' || c == '\x0c' || c == '\r'

/-- Whether an ASCII character shows: as itself where no sequence is open, and as white space also
within the sequences that let control characters through. -/
def shows (s : SequenceState) (c : Char) : Bool :=
  match s with
  | ground => within 0x20 0x7e c.toNat || isSpace c
  | escape | escapeIntermediate | controlEntry | controlParameter | controlIntermediate
  | controlIgnored => isSpace c && c != ' '
  | _ => false

end SequenceState

/-- What shows of a text, from a state on. If `plain`, the text is being shown, and the state is
that of a sequence to be taken up again. -/
def plainFrom : Bool → SequenceState → List Char → List Char
  | _, _, [] => []
  | plain, s, c :: later =>
    let reading := if plain then .ground else s
    if c.toNat < 0x80 then
      let s := (reading.next? c).getD s
      if reading.shows c then c :: plainFrom true s later else plainFrom false s later
    else if reading = .ground then c :: plainFrom true .ground later
    else plainFrom false (s.nextBeyond c) later

def plainText (cs : List Char) : List Char := plainFrom true .ground cs

end RtuStation
