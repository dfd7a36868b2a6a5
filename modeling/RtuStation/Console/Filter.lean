import RtuStation.Pattern.Reader
import RtuStation.World.Notice

/-!
# Filters

A filter tells which notices are shown. It is written as directives with commas between them: the
name of a level, which is about all notices, or `origin=level`, which is about those whose origin
starts so. The most particular directive decides. Behind a slash a pattern can stand that must occur
in a notice for it to be shown; one that is not well formed is ignored.
-/

namespace RtuStation

structure Directive where
  /-- How the origins start that the rule is about; without it, all are. -/
  origin : Option (List Char)
  /-- The rank of the least urgent level that is shown. -/
  threshold : Nat
  deriving DecidableEq, Repr

structure Filter where
  directives : List Directive := []
  content : Option Pattern := none
  deriving DecidableEq, Repr

def trimmed (cs : List Char) : List Char :=
  (((cs.dropWhile isBlank).reverse).dropWhile isBlank).reverse

namespace Directive

def thresholds : List (String × Nat) :=
  [("off", 0), ("error", 1), ("warn", 2), ("info", 3), ("debug", 4), ("trace", 5)]

def unlimited : Nat := 5

/-- The threshold that a word names, in letters of either case. -/
def threshold? (word : List Char) : Option Nat :=
  thresholds.lookup (String.ofList (word.map Char.toLower))

def ofText? (item : List Char) : Option Directive :=
  match item.splitOn '=' with
  | [word] =>
    match threshold? word with
    | some n => some ⟨none, n⟩
    | none => some ⟨some word, unlimited⟩
  | [origin, level] =>
    let level := trimmed level
    if level.isEmpty then some ⟨some origin, unlimited⟩
    else (threshold? level).map fun n => ⟨some origin, n⟩
  | _ => none

def covers (d : Directive) (origin : List Char) : Bool :=
  match d.origin with
  | none => true
  | some start => start.isPrefixOf origin

/-- How particular a rule is. -/
def length (d : Directive) : Nat := (d.origin.getD []).length

end Directive

namespace Filter

/-- A list of rules with one more, which takes the place of a rule about the same origins. -/
def add (rules : List Directive) (d : Directive) : List Directive :=
  if rules.any fun old => old.origin = d.origin then
    rules.map fun old => if old.origin = d.origin then d else old
  else rules ++ [d]

def rules (cs : List Char) : List Directive :=
  let items := ((cs.splitOn ',').map trimmed).filter fun item => !item.isEmpty
  (items.filterMap Directive.ofText?).foldl add []

/-- A filter with some rules. Where there are none, only errors are shown. -/
def ofRules (rules : List Directive) (content : Option Pattern) : Filter :=
  { directives := if rules.isEmpty then [⟨none, Level.error.rank⟩] else rules, content }

/-- The filter that is written so. A text with two slashes has no meaning. -/
def ofText (text : String) : Filter :=
  match text.toList.splitOn '/' with
  | [list] => ofRules (rules list) none
  | [list, content] => ofRules (rules list) (Pattern.ofText? content)
  | _ => ofRules [] none

def standard : Filter := ofText "info"

/-- The rule that decides about an origin: the most particular one, the later of two alike. -/
def deciding? (f : Filter) (origin : List Char) : Option Directive :=
  (f.directives.filter (·.covers origin)).foldl (fun best d =>
    match best with
    | some b => if d.length < b.length then best else some d
    | none => some d) none

def shows (f : Filter) (n : Notice) : Bool :=
  match n.level?, n.origin? with
  | some level, some origin =>
    match f.deciding? origin.toList with
    | some d => level.rank ≤ d.threshold && f.content.all (·.occursIn n.text.toList)
    | none => false
  | _, _ => true

end Filter
end RtuStation
