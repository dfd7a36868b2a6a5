/-!
# Buffers

What was sent and not yet read waits in a buffer. How much more a buffer takes depends on how its
octets came: a socket is charged for the memory of each piece of a write, a pipe has so many pages,
and a terminal has a row of blocks in front of the octets that are ready for its reader.

`Buffer.write` is one write, `Buffer.fill` repeats it as long as something is taken, and
`Buffer.read` makes room again. A buffer knows amounts only; the octets are with the line.
-/

namespace RtuStation

def pieces (piece amount : Nat) : List Nat :=
  List.replicate (amount / piece) piece ++
    if amount % piece = 0 then [] else [amount % piece]

def roundUp (unit amount : Nat) : Nat := (amount + unit - 1) / unit * unit

def pageSize : Nat := 4096

/-! ### Parcels -/

/-- A piece of memory with octets that wait for their reader. -/
structure Parcel where
  unread : Nat
  /-- What it counts towards the limit of its buffer, until it has been read to its end. -/
  extent : Nat
  deriving DecidableEq, Repr

namespace Parcel

def consume : Nat → List Parcel → List Parcel
  | _, [] => []
  | amount, p :: later =>
    if p.unread ≤ amount then consume (amount - p.unread) later
    else { p with unread := p.unread - amount } :: later

def append (full : List Parcel → Bool) (charge : Nat → Nat) :
    List Parcel → List Nat → Nat × List Parcel
  | row, [] => (0, row)
  | row, amount :: later =>
    if full row then (0, row)
    else
      let (taken, row) := append full charge (row ++ [⟨amount, charge amount⟩]) later
      (amount + taken, row)

end Parcel

/-! ### Sockets -/

namespace Socket

/-- The charge from which on a socket takes no further parcel. -/
def limit : Nat := 212992

def largest : Nat := 36544

/-- The most octets that lie in the first block of a parcel; the rest lies in pages. -/
def blockRoom : Nat := 3776

def block (amount : Nat) : Nat := ([512, 1024, 2048].find? (amount ≤ ·)).getD 4096

def charge (amount : Nat) : Nat :=
  let paged := min amount (roundUp pageSize (amount - blockRoom))
  block (roundUp 64 (amount - paged) + 320) + 256 + roundUp pageSize paged

def full (row : List Parcel) : Bool := limit ≤ row.foldr (fun p sum => p.extent + sum) 0

def write (row : List Parcel) (amount : Nat) : Nat × List Parcel :=
  Parcel.append full charge row (pieces largest amount)

end Socket

/-! ### Pipes -/

namespace Pipe

def limit : Nat := 16

def full (row : List Parcel) : Bool := limit ≤ row.length

/-- One write to a pipe: what does not fill a page goes to the last page in use, if there is room
for all of it, and everything else to new pages. -/
def write (row : List Parcel) (amount : Nat) : Nat × List Parcel :=
  let odd := amount % pageSize
  match row.getLast? with
  | some last =>
    if odd ≠ 0 ∧ last.extent + odd ≤ pageSize then
      let joined : Parcel := ⟨last.unread + odd, last.extent + odd⟩
      let (taken, row) :=
        Parcel.append full id (row.dropLast ++ [joined]) (pieces pageSize (amount - odd))
      (odd + taken, row)
    else Parcel.append full id row (pieces pageSize amount)
  | none => Parcel.append full id row (pieces pageSize amount)

end Pipe

/-! ### Terminals -/

structure Block where
  size : Nat
  filled : Nat
  /-- How many of them are already ready for the reader. -/
  passed : Nat
  deriving DecidableEq, Repr

namespace Block

/-- How many octets still fit in: a block has two octets of space for each of its size. -/
def room (b : Block) : Nat := 2 * b.size - b.filled

def waiting (b : Block) : Nat := b.filled - b.passed

end Block

structure TerminalQueue where
  ready : Nat := 0
  /-- The blocks before the one that is being filled, the oldest first. -/
  earlier : List Block := []
  last : Block := ⟨0, 0, 0⟩
  charge : Nat := 0
  spare : Nat := 0
  deriving DecidableEq, Repr

namespace TerminalQueue

def readyRoom : Nat := 4095

/-- The charge up to which a terminal gets new blocks. -/
def limit : Nat := 8192

def leastBlock : Nat := 256

def largest : Nat := 1792

def chunk : Nat := 2048

/-- The queue without one of its blocks, which is kept for use if it has the least size. -/
def retire (q : TerminalQueue) (b : Block) : TerminalQueue :=
  { q with
    charge := q.charge - b.size
    spare := if b.size = leastBlock then q.spare + 1 else q.spare }

/-- Makes octets ready, from the given blocks and then from the last, until so many are ready. A
block that has been emptied leaves the row, except the last. -/
def passing (room : Nat) : List Block → TerminalQueue → TerminalQueue
  | [], q =>
    let n := min q.last.waiting (room - q.ready)
    { q with
      ready := q.ready + n, earlier := [], last := { q.last with passed := q.last.passed + n } }
  | b :: later, q =>
    let n := min b.waiting (room - q.ready)
    if n < b.waiting then
      { q with ready := q.ready + n, earlier := { b with passed := b.passed + n } :: later }
    else passing room later { q.retire b with ready := q.ready + n }

def settle (q : TerminalQueue) : TerminalQueue := passing readyRoom q.earlier q

def extend? (q : TerminalQueue) (amount : Nat) : Option TerminalQueue :=
  let size := roundUp leastBlock amount
  let reused := size ≤ leastBlock ∧ 0 < q.spare
  if ¬reused ∧ limit < q.charge then none
  else some { q with
    earlier := q.earlier ++ [q.last]
    last := ⟨size, 0, 0⟩
    charge := q.charge + size
    spare := if reused then q.spare - 1 else q.spare }

def put (q : TerminalQueue) (amount : Nat) : TerminalQueue :=
  { q with last := { q.last with filled := q.last.filled + amount } }

/-- Puts octets into the row, into the last block or a new one, until no room is found. -/
def insert (q : TerminalQueue) (amount : Nat) : Nat × TerminalQueue :=
  let goal := min amount largest
  let (n, q) :=
    if goal ≤ q.last.room then (goal, q)
    else
      match q.extend? goal with
      | some q => (goal, q)
      | none => (q.last.room, q)
  if _h : n = 0 ∨ amount ≤ n then (n, q.put n)
  else
    let (taken, q) := insert (q.put n) (amount - n)
    (n + taken, q)
termination_by amount

def writeAll : List Nat → TerminalQueue → Nat × TerminalQueue
  | [], q => (0, q)
  | amount :: later, q =>
    let (n, q) := q.insert amount
    let q := q.settle
    if n < amount then (n, q)
    else
      let (taken, q) := writeAll later q
      (n + taken, q)

def write (q : TerminalQueue) (amount : Nat) : Nat × TerminalQueue :=
  writeAll (pieces chunk amount) q

def read (q : TerminalQueue) (amount : Nat) : TerminalQueue :=
  let q := passing (readyRoom + amount) q.earlier q
  { q with ready := q.ready - amount }

def discard (q : TerminalQueue) : TerminalQueue :=
  let q := q.earlier.foldl retire q
  { q with earlier := [], last := { q.last with passed := q.last.filled } }

end TerminalQueue

/-! ### Buffers -/

inductive Buffer where
  | socket (parcels : List Parcel)
  | pipe (pages : List Parcel)
  | terminal (queue : TerminalQueue)
  deriving DecidableEq, Repr

namespace Buffer

/-- One write; the first part of the answer is how many octets were taken. -/
def write (amount : Nat) : Buffer → Nat × Buffer
  | socket parcels =>
    let (n, parcels) := Socket.write parcels amount
    (n, socket parcels)
  | pipe pages =>
    let (n, pages) := Pipe.write pages amount
    (n, pipe pages)
  | terminal q =>
    let (n, q) := q.write amount
    (n, terminal q)

def fill (b : Buffer) (amount : Nat) : Nat × Buffer :=
  let (n, b) := b.write amount
  if _h : n = 0 ∨ amount ≤ n then (n, b)
  else
    let (taken, b) := fill b (amount - n)
    (n + taken, b)
termination_by amount

def read (amount : Nat) : Buffer → Buffer
  | socket parcels => socket (Parcel.consume amount parcels)
  | pipe pages => pipe (Parcel.consume amount pages)
  | terminal q => terminal (q.read amount)

def discard : Buffer → Nat × Buffer
  | socket _ => (0, socket [])
  | pipe _ => (0, pipe [])
  | terminal q => (q.ready, terminal q.discard)

end Buffer
end RtuStation
