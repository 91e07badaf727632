import Installation.Value.Basic

/-!
# Equality of values

Two values are the same, `Value.same`, when they have the same parts: numbers of all types
are the same when they denote the same point, dictionaries are without regard to the order
of their entries, and records by their attributes alone, whatever their kind.  Numbers that
denote no point are told apart by their payload.  Keys are the same on the same terms, so
that `1`, `true` and `1.0` are one key.

`Value.equal` is the comparison of values as numbers compare: it agrees with `Value.same`
except that a number that denotes no point is equal to nothing.
-/

namespace Installation

namespace Key

mutual

/-- Whether two keys are the same. -/
def same : Key → Key → Bool
  | .null, .null => true
  | .text s, .text t => s == t
  | .tuple ks, .tuple ls => sameAll ks ls
  | .float (.nan m), .float (.nan n) => m == n
  | k, l =>
    match k.number?, l.number? with
    | some (some p), some (some q) => p.same q
    | _, _ => false

/-- Whether the keys of two lists are the same one by one. -/
def sameAll : List Key → List Key → Bool
  | [], [] => true
  | k :: ks, l :: ls => same k l && sameAll ks ls
  | _, _ => false

end

instance : BEq Key := ⟨same⟩

@[simp]
theorem beq_text (s t : String) :
  (Key.text s == Key.text t) = (s == t)
  := by
  change same (.text s) (.text t) = (s == t)
  simp [same]

end Key

namespace Value

mutual

/-- Whether two values are the same. -/
def same : Value → Value → Bool
  | .null, .null => true
  | .text s, .text t => s == t
  | .list vs, .list ws => sameAll vs ws
  | .tuple vs, .tuple ws => sameAll vs ws
  | .dict es, .dict fs => es.length == fs.length && sameEntries es fs
  | .record _ as, .record _ bs => as.length == bs.length && sameAttrs as bs
  | .float (.nan m), .float (.nan n) => m == n
  | v, w =>
    match v.number?, w.number? with
    | some (some p), some (some q) => p.same q
    | _, _ => false

/-- Whether the values of two lists are the same one by one. -/
def sameAll : List Value → List Value → Bool
  | [], [] => true
  | v :: vs, w :: ws => same v w && sameAll vs ws
  | _, _ => false

/-- Whether each of the first entries has the same one among the second. -/
def sameEntries : List (Key × Value) → List (Key × Value) → Bool
  | [], _ => true
  | (k, v) :: es, fs =>
    (match fs.find? fun f => k.same f.1 with
      | some (_, w) => same v w
      | none => false) &&
    sameEntries es fs

/-- Whether each of the first attributes has the same one among the second. -/
def sameAttrs : List (String × Value) → List (String × Value) → Bool
  | [], _ => true
  | (name, v) :: as, bs =>
    (match bs.lookup name with
      | some w => same v w
      | none => false) &&
    sameAttrs as bs

end

/-- Whether a value is a number that denotes no point. -/
def lacksPoint : Value → Bool
  | .float (.nan _) => true
  | _ => false

/-- Whether two values are equal. -/
def equal (v w : Value) : Bool := !v.lacksPoint && v.same w

instance : BEq Value := ⟨equal⟩

/-- The value of a dictionary's entry with a text as its key. -/
def entryAt? (name : String) (entries : List (Key × Value)) : Option Value :=
  entries.lookup (.text name)

end Value

end Installation
