import Installation.Gaps.Places
import Installation.Schema.Passage

/-!
# Shared parts

One and the same part can stand in several places: a default that has filled a gap stands
in the spec as well as among the defaults, and the fields that were changed hold records of
the spec.  A change inside of such a part is seen in all of its places.  A `Sharing` keeps
account of them in groups, one for each part; a place is left out of its group once
something else stands there.
-/

namespace Installation

/-- What a part belongs to: the spec, the fields that were changed, or the defaults. -/
inductive Holder where
  | spec
  | defaulted
  | defaults
deriving DecidableEq

/-- A place of a part. -/
structure Place where
  holder : Holder
  path : Path
deriving BEq

namespace Place

/-- The path from a place to another one that is at or below it. -/
def pathTo? (p q : Place) : Option Path :=
  if p.holder = q.holder then p.path.isPrefixOf? q.path else none

/-- The place that a path leads to from a place. -/
def down (p : Place) (path : Path) : Place := { p with path := p.path ++ path }

end Place

/-- The places of parts that stand in several places. -/
structure Sharing where
  groups : List (List Place)

namespace Sharing

/-- Every part in one place. -/
def none : Sharing := ⟨[]⟩

/-- A sharing without some of the places. -/
def forget (gone : Place → Bool) (s : Sharing) : Sharing :=
  ⟨(s.groups.map fun group => group.filter fun p => !gone p).filter fun group =>
    1 < group.length⟩

/-- A sharing after something else was put into some places. -/
def replace (places : List Place) (s : Sharing) : Sharing :=
  s.forget fun p => places.any fun q => (q.pathTo? p).isSome

/-- A sharing in which a further place holds the part of a given one. -/
def join (p new : Place) (s : Sharing) : Sharing :=
  if s.groups.any fun group => group.contains p then
    ⟨s.groups.map fun group => if group.contains p then group ++ [new] else group⟩
  else ⟨s.groups ++ [[p, new]]⟩

/-- The other places of what is at a place inside of shared parts. -/
def others (place : Place) (s : Sharing) : List Place :=
  s.groups.flatMap fun group =>
    group.flatMap fun p =>
      match p.pathTo? place with
      | some (k :: path) => (group.filter fun q => q != p).map fun q => q.down (k :: path)
      | _ => []

/-- A sharing after a gap of the spec was filled. -/
def fill (s : Sharing) (gap : Gap) : Sharing :=
  let place : Place := ⟨.spec, gap.path⟩
  (s.replace [place]).join ⟨.defaults, [.text gap.source]⟩ place

/-- A sharing after the changed fields took over a record of the spec. -/
def pass (s : Sharing) (passage : Passage) : Sharing :=
  s.join ⟨.spec, passage.inside⟩ ⟨.defaulted, passage.outside⟩

/-- A sharing after what belongs to a holder was replaced as a whole. -/
def release (holder : Holder) (s : Sharing) : Sharing :=
  s.forget fun p => p.holder = holder

@[simp]
theorem others_none (place : Place) :
  none.others place = []
  := rfl

@[simp]
theorem forget_none (gone : Place → Bool) :
  none.forget gone = none
  := rfl

/-- Where every part is in one place, this stays so when something is replaced. -/
@[simp]
theorem replace_none (places : List Place) :
  none.replace places = none
  := rfl

@[simp]
theorem release_none (holder : Holder) :
  none.release holder = none
  := rfl

end Sharing

end Installation
