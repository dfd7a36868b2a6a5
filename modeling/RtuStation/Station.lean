import RtuStation.Error
import RtuStation.Request

/-!
# Stations

A station (`rtu.responder.RtuEngine`) answers the frames sent to its address and carries out those
sent to all. A frame that is too short, damaged or meant for another station changes nothing and
gets no reply. A request that is refused changes nothing either; its reply has the highest bit of
the function code set and names the exception.
-/

namespace RtuStation

/-- The address that all stations obey and none answers. -/
def broadcast : UInt8 := 0

structure Station where
  unit : UInt8
  valid : 1 ≤ unit.toNat ∧ unit.toNat ≤ 247

def Station.ofUnit (unit : UInt8) : Except Error Station :=
  if h : 1 ≤ unit.toNat ∧ unit.toNat ≤ 247 then .ok ⟨unit, h⟩
  else .error (.invalidArgument (.unit unit.toNat))

inductive Remark where
  | short (frame : Octets)
  | damaged (frame : Octets)
  | refused (function : UInt8) (exception : Exception)
  deriving DecidableEq, Repr

structure Answer where
  reply : Option Octets
  change : Change
  remark : Option Remark

namespace Answer

def ignored (remark : Option Remark) : Answer := ⟨none, .nothing, remark⟩

end Answer

namespace Request

/-- The answer to a function code with its data: the data of a normal answer with what is changed,
or the exception. -/
def respond (unit : UInt8) (pdu : Octets) (banks : Banks) : Except Exception (Octets × Change) :=
  match decode pdu with
  | .error e => .error e
  | .ok request =>
    match request.perform? unit banks with
    | none => .error .illegalDataAddress
    | some result => .ok result

end Request

namespace Station

def pdu (frame : Octets) : Octets := (Crc.body frame).drop 1

def functionOctet (frame : Octets) : UInt8 := (pdu frame).headD 0

/-- What becomes of a frame that reaches the station (`RtuEngine.reply`). -/
def answer (s : Station) (frame : Octets) (banks : Banks) : Answer :=
  if frame.length < minFrame then .ignored (some (.short frame))
  else if !Crc.intact frame then .ignored (some (.damaged frame))
  else
    let address := frame.headD 0
    let function := functionOctet frame
    if address ≠ s.unit ∧ address ≠ broadcast then .ignored none
    else
      match Request.respond s.unit (pdu frame) banks with
      | .ok (data, change) =>
        if address = broadcast then ⟨none, change, none⟩
        else ⟨some (Crc.checked (address :: function :: data)), change, none⟩
      | .error e =>
        if address = broadcast then .ignored none
        else ⟨some (Crc.checked [address, function ||| 0x80, e.code]), .nothing,
          some (.refused function e)⟩

def process (s : Station) (frame : Octets) (banks : Banks) : Option Octets × Banks :=
  let a := s.answer frame banks
  (a.reply, banks.apply a.change)

end Station

/-! ### What a frame changed -/

/-- A run of adjacent elements that differ, from its first index on. -/
structure Difference where
  bank : BankKind
  start : Nat
  values : List Nat
  deriving DecidableEq, Repr

namespace Bank

def number : (w : Width) → w.Value → Nat
  | .bit, v => v.toNat
  | .word, v => v.toNat

/-- The indices below `count` where the elements of two memories differ, in ascending order, with
the new elements. -/
def differing (w : Width) (before after : Array UInt8) (count : Nat) : List (Nat × Nat) :=
  (List.range count).filterMap fun i =>
    let new := load w after i
    if number w (load w before i) = number w new then none else some (i, number w new)

end Bank

/-- Elements joined to runs of adjacent indices. -/
def Difference.runs (bank : BankKind) : List (Nat × Nat) → List Difference
  | [] => []
  | (i, v) :: rest =>
    match runs bank rest with
    | d :: ds => if d.start = i + 1 then ⟨bank, i, v :: d.values⟩ :: ds else ⟨bank, i, [v]⟩ :: d :: ds
    | [] => [⟨bank, i, [v]⟩]

/-- The runs of elements in which two states of the banks differ, with the elements of the second. -/
def Banks.differences (before after : Banks) : List Difference :=
  BankKind.all.flatMap fun k =>
    Difference.runs k
      (Bank.differing k.width (before.get k).cells (after.get k).cells (after.get k).length)

end RtuStation
