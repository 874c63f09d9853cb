/-
Plain data: what a data file or a message holds before any meaning is given to it.

A map keeps the order of its entries; its keys are scalars, since a file may use other keys than texts. Two keys are the
same when they have the same value, so that the whole number 1, the floating point number 1.0 and true are one key.

A value of a file may hold itself. Such a value is a `knot`: inside its body, `again` stands for the knot, and `opened`
puts the knot there, so that what a value holds can be looked at to any depth.

Result: `equals_iff`: equality of values can be computed.
-/
import ContractGraph.Number.Double
import ContractGraph.Calendar.Basic
import ContractGraph.Table

namespace ContractGraph

/-- a value without parts -/
inductive Scalar where
  | null
  | bool (b : Bool)
  | int (i : Int)
  | float (x : Double)
  | text (s : String)
  | date (d : Date)
  | timestamp (t : Timestamp)
  | bytes (bs : List UInt8)
deriving DecidableEq, Repr, Inhabited

/-- plain data -/
inductive Value where
  | scalar (s : Scalar)
  | list (items : List Value)
  | map (entries : List (Scalar × Value))
  /-- two values that belong together -/
  | pair (first second : Value)
  /-- different scalars, in the order in which they are told -/
  | set (members : List Scalar)
  /-- a list, a map or a pair that may hold itself -/
  | knot (label : Nat) (body : Value)
  /-- inside a knot, the knot of the label -/
  | again (label : Nat)
deriving Repr, Inhabited

namespace Scalar

/-- the number that a scalar is; true and false count as one and zero -/
def number? : Scalar → Option Double
  | bool b => some (.ofInt (if b then 1 else 0))
  | int i => some (.ofInt i)
  | float x => some x
  | _ => none

/-- the whole number that a scalar is exactly -/
def whole? : Scalar → Option Int
  | bool b => some (if b then 1 else 0)
  | int i => some i
  | float x => x.toInt?
  | _ => none

/-- do two scalars have the same value? numbers and moments are compared by value, and a nan equals nothing -/
def same (a b : Scalar) : Bool :=
  match a.whole?, b.whole? with
  | some i, some j => i == j
  | some _, none | none, some _ => false
  | none, none =>
    match a, b with
    | float x, float y => x.same y
    | timestamp t, timestamp u => t.same u
    | _, _ => a == b

end Scalar

namespace Value

@[match_pattern] abbrev null : Value := .scalar .null
@[match_pattern] abbrev bool (b : Bool) : Value := .scalar (.bool b)
@[match_pattern] abbrev int (i : Int) : Value := .scalar (.int i)
@[match_pattern] abbrev float (x : Double) : Value := .scalar (.float x)
@[match_pattern] abbrev text (s : String) : Value := .scalar (.text s)

/-- entries with `v` under `k`: in the place of an earlier value, whose key stays, else at the end -/
def writeEntry (k : Scalar) (v : Value) : List (Scalar × Value) → List (Scalar × Value)
  | [] => [(k, v)]
  | (k', v') :: es => if k'.same k || k' == k then (k', v) :: es else (k', v') :: writeEntry k v es

/-- a map written entry by entry; the last value of a repeated key holds -/
def ofEntries (es : List (Scalar × Value)) : Value := .map (es.foldl (fun m e => writeEntry e.1 e.2 m) [])

/-- a map with texts as keys -/
def ofTable (t : Table Value) : Value := .map (t.entries.map fun e => (.text e.1, e.2))

/-- a map with texts as keys, from distinct keys -/
def record (fields : List (String × Value)) : Value := .map (fields.map fun e => (.text e.1, e.2))

/-- the value under a text in a list of entries -/
def field? (k : String) (es : List (Scalar × Value)) : Option Value := es.lookup (.text k)

/-! ## Values that hold themselves -/

/-- a value with `w` in the places where a label comes again -/
def tie (label : Nat) (w : Value) : Value → Value
  | .scalar s => .scalar s
  | .list xs => .list (tieItems xs)
  | .map es => .map (tieEntries es)
  | .pair a b => .pair (tie label w a) (tie label w b)
  | .set ms => .set ms
  | .knot l b => .knot l (if l = label then b else tie label w b)
  | .again l => if l = label then w else .again l
where
  tieItems : List Value → List Value
    | [] => []
    | x :: xs => tie label w x :: tieItems xs
  tieEntries : List (Scalar × Value) → List (Scalar × Value)
    | [] => []
    | (k, v) :: es => (k, tie label w v) :: tieEntries es

/-- what a knot holds, with the knot itself wherever it comes again -/
def opened : Value → Value
  | .knot l b => tie l (.knot l b) b
  | v => v

/-- the entries of a map -/
def entries? (v : Value) : Option (List (Scalar × Value)) :=
  match v.opened with
  | .map es => some es
  | _ => none

/-- what stands one after the other in a list, a pair or a set -/
def items? (v : Value) : Option (List Value) :=
  match v.opened with
  | .list xs => some xs
  | .pair a b => some [a, b]
  | .set ms => some (ms.map .scalar)
  | _ => none

/-- the value under a text in a map -/
def get? (v : Value) (k : String) : Option Value := v.entries?.bind (field? k)

/-- is a value taken as true? null, false, zero and everything empty are not -/
def isTruthy : Value → Bool
  | .scalar .null => false
  | .scalar (.bool b) => b
  | .scalar (.int i) => i != 0
  | .scalar (.float x) => x.toInt? != some 0
  | .scalar (.text s) => s != ""
  | .scalar (.bytes bs) => !bs.isEmpty
  | .scalar _ => true
  | .list xs => !xs.isEmpty
  | .map es => !es.isEmpty
  | .pair .. => true
  | .set ms => !ms.isEmpty
  | .knot _ b => isTruthy b
  | .again _ => true

/-- do two values hold the same data? the order of a map's entries has no meaning -/
def same : Value → Value → Bool
  | .scalar a, .scalar b => a.same b
  | .list xs, .list ys => sameList xs ys
  | .map es, .map fs => es.length == fs.length && sameEntries es fs
  | .pair a b, .pair c d => same a c && same b d
  | .set ms, .set ns => ms.length == ns.length && ms.all fun m => ns.any m.same
  | .knot l b, .knot m c => l == m && same b c
  | .again l, .again m => l == m
  | _, _ => false
where
  sameList : List Value → List Value → Bool
    | [], [] => true
    | x :: xs, y :: ys => same x y && sameList xs ys
    | _, _ => false
  sameEntries : List (Scalar × Value) → List (Scalar × Value) → Bool
    | [], _ => true
    | (k, v) :: es, fs =>
      match fs.find? fun f => f.1.same k with
      | some f => same v f.2 && sameEntries es fs
      | none => false

/-! ## Equality -/

/-- are two values made in the same way? the order of a map's entries counts -/
def equals : Value → Value → Bool
  | .scalar a, .scalar b => a == b
  | .list xs, .list ys => equalItems xs ys
  | .map es, .map fs => equalEntries es fs
  | .pair a b, .pair c d => equals a c && equals b d
  | .set ms, .set ns => ms == ns
  | .knot l b, .knot m c => l == m && equals b c
  | .again l, .again m => l == m
  | _, _ => false
where
  equalItems : List Value → List Value → Bool
    | [], [] => true
    | x :: xs, y :: ys => equals x y && equalItems xs ys
    | _, _ => false
  equalEntries : List (Scalar × Value) → List (Scalar × Value) → Bool
    | [], [] => true
    | (k, v) :: es, (l, w) :: fs => k == l && equals v w && equalEntries es fs
    | _, _ => false

mutual

theorem equals_iff : (v w : Value) → (v.equals w = true ↔ v = w)
  | .scalar a, w => by cases w <;> simp [equals]
  | .list xs, w => by cases w <;> simp [equals, equalItems_iff]
  | .map es, w => by cases w <;> simp [equals, equalEntries_iff]
  | .pair a b, w => by cases w <;> simp [equals, equals_iff]
  | .set ms, w => by cases w <;> simp [equals]
  | .knot l b, w => by cases w <;> simp [equals, equals_iff]
  | .again l, w => by cases w <;> simp [equals]

theorem equalItems_iff : (xs ys : List Value) → (equals.equalItems xs ys = true ↔ xs = ys)
  | [], ys => by cases ys <;> simp [equals.equalItems]
  | x :: xs, ys => by cases ys <;> simp [equals.equalItems, equals_iff, equalItems_iff]

theorem equalEntries_iff : (es fs : List (Scalar × Value)) → (equals.equalEntries es fs = true ↔ es = fs)
  | [], fs => by cases fs <;> simp [equals.equalEntries]
  | (k, v) :: es, fs => by rcases fs with _ | ⟨⟨l, w⟩, fs⟩ <;> simp [equals.equalEntries, equals_iff, equalEntries_iff]

end

instance : DecidableEq Value := fun v w => decidable_of_iff _ (equals_iff v w)

end Value

end ContractGraph
