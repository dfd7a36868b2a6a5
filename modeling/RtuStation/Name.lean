import RtuStation.Octets

/-!
# Object names

Named objects of the system carry a name (`shm_name.posix_name`) that starts with a slash, holds no
further slash and no NUL, and has at most 255 octets. Any text with at most one leading slash gets
such a name. One that is too long is cut after a whole character and closed with a hash of the full
text, so that different long texts stay apart.
-/

namespace RtuStation

/-- The longest name in octets, the leading slash included. -/
def maxName : Nat := 255

/-! ### FNV-1a -/

namespace Fnv

def offset : UInt64 := 0xcbf29ce484222325

def prime : UInt64 := 0x100000001b3

def absorb (h : UInt64) (b : UInt8) : UInt64 := (h ^^^ b.toUInt64) * prime

def hash (bytes : Octets) : UInt64 := bytes.foldl absorb offset

def hexDigits : Nat → Nat → List Char
  | 0, _ => []
  | n + 1, x => hexDigits n (x / 16) ++ [(Octets.hexDigit (x % 16)).toLower]

def digits (h : UInt64) : List Char := hexDigits 16 h.toNat

end Fnv

/-! ### Names -/

def textOctets (cs : List Char) : Octets := cs.flatMap String.utf8EncodeChar

def textSize (cs : List Char) : Nat := cs.foldr (fun c size => c.utf8Size + size) 0

/-- The longest start of a text that fits into `room` octets without cutting a character. -/
def fitting : Nat → List Char → List Char
  | _, [] => []
  | room, c :: cs => if c.utf8Size ≤ room then c :: fitting (room - c.utf8Size) cs else []

structure ObjectName where
  text : String
  deriving DecidableEq, Repr

inductive BadName where
  | empty
  | malformed
  deriving DecidableEq, Repr

namespace ObjectName

def remainder : List Char → List Char
  | '/' :: cs => cs
  | cs => cs

/-- The room left for the start of a shortened text: a slash, an underscore and sixteen digits take
the rest. -/
def headRoom : Nat := maxName - 18

/-- The name's characters for a text without its slash. -/
def canonical (body : List Char) : List Char :=
  let full := '/' :: body
  if textSize full ≤ maxName then full
  else '/' :: (fitting headRoom body ++ '_' :: Fnv.digits (Fnv.hash (textOctets full)))

/-- The name of the object that a text denotes (`posix_name`). -/
def ofText (text : String) : Except BadName ObjectName :=
  let body := remainder text.toList
  if body.isEmpty then .error .empty
  else if body.contains '/' || body.contains '\x00' then .error .malformed
  else .ok ⟨String.ofList (canonical body)⟩

def bodySize (name : ObjectName) : Nat := textSize name.text.toList - 1

/-- Whether a name is that of a directory, which holds the objects or leads to the one above it. -/
def isDirectory (name : ObjectName) : Bool := name.text == "/." || name.text == "/.."

end ObjectName

def bankName (stem suffix : String) : String := stem ++ suffix

end RtuStation
