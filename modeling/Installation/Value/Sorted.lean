import Installation.Fault
import Installation.Sorting.Runs

/-!
# Values with sorted keys

`Key.less` is the order of keys: texts by code points, numbers by what they denote, and
tuples by their first difference; keys of other types are not comparable, which is a fault.
`Value.sortKeys` sorts the entries of all dictionaries that are reached through
dictionaries and lists by their keys.  Texts are put into their order one by one; other keys
need not have an order among them, so that their runs are sorted.
-/

namespace Installation

namespace Key

mutual

/-- Whether the first key comes before the second. -/
def less : Key → Key → Except Fault Bool
  | .text s, .text t => .ok (decide (s < t))
  | .tuple ks, .tuple ls => lessAll ks ls
  | k, l =>
    match k.number?, l.number? with
    | some (some p), some (some q) => .ok (p.less q)
    | some _, some _ => .ok false
    | _, _ => .error (.incomparable k.typeName l.typeName)

/-- Whether the first list of keys comes before the second. -/
def lessAll : List Key → List Key → Except Fault Bool
  | _, [] => .ok false
  | [], _ :: _ => .ok true
  | k :: ks, l :: ls => if k.same l then lessAll ks ls else less k l

end

end Key

namespace Value

variable {α : Type}

/-- Entries by the texts that are their keys; none when a key is no text. -/
def textEntries? : List (Key × α) → Option (List (String × α))
  | [] => some []
  | (.text s, x) :: entries => (textEntries? entries).map ((s, x) :: ·)
  | _ :: _ => none

/-- Put an entry into sorted entries. -/
def insertByText (e : String × α) : List (String × α) → List (String × α)
  | [] => [e]
  | f :: fs => if f.1 < e.1 then f :: insertByText e fs else e :: f :: fs

/-- Entries in the order of their texts. -/
def sortByText : List (String × α) → List (String × α)
  | [] => []
  | e :: es => insertByText e (sortByText es)

/-- Entries in the order of their keys. -/
def sortEntries (entries : List (Key × α)) : Except Fault (List (Key × α)) :=
  match textEntries? entries with
  | some entries => .ok ((sortByText entries).map fun (s, x) => (.text s, x))
  | none => Sorting.byRuns (fun e f => e.1.less f.1) entries

/-- Entries whose values are all there, or the first fault among them. -/
def collect : List (Key × Except Fault α) → Except Fault (List (Key × α))
  | [] => .ok []
  | (k, v) :: entries =>
    match v with
    | .error fault => .error fault
    | .ok v => (collect entries).map ((k, v) :: ·)

mutual

/-- A value with the keys of its dictionaries sorted. -/
def sortKeys : Value → Except Fault Value
  | .dict entries =>
    match sortEntries (sortKeysEntries entries) with
    | .error fault => .error fault
    | .ok sorted => (collect sorted).map Value.dict
  | .list vs => (sortKeysAll vs).map Value.list
  | v => .ok v

/-- The elements of a list with the keys of their dictionaries sorted. -/
def sortKeysAll : List Value → Except Fault (List Value)
  | [] => .ok []
  | v :: vs =>
    match sortKeys v with
    | .error fault => .error fault
    | .ok v => (sortKeysAll vs).map (v :: ·)

/-- The entries of a dictionary in their order, each with what the sorting of its value
gives. -/
def sortKeysEntries : List (Key × Value) → List (Key × Except Fault Value)
  | [] => []
  | (k, v) :: entries => (k, sortKeys v) :: sortKeysEntries entries

end

end Value

end Installation
