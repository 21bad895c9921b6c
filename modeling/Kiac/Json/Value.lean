import Mathlib.Data.List.Nodup
import Kiac.Text.Decimal

/-!
# JSON values

The names of an object are listed once each, so an object is a map by construction. A path is a
list of reference tokens; in an array, a token that is a decimal without leading zeros stands for
an element.
-/

namespace Kiac

inductive Json where
  | null
  | bool (value : Bool)
  | num (text : Str)
  | str (text : Str)
  | arr (items : List Json)
  | obj (keys : List Str) (unique : keys.Nodup) (vals : {key // key ∈ keys} → Json)

namespace Json

/-- An object whose values are given for all names. -/
def object (keys : List Str) (unique : keys.Nodup) (value : Str → Json) : Json :=
  obj keys unique fun key => value key.1

/-- The element that a token stands for. -/
def index (token : Str) : Option ℕ :=
  (Str.parseDigits token).bind fun n => if Str.formatNat n = token then some n else none

/-- The member of an object or the element of an array. -/
def child (token : Str) : Json → Option Json
  | obj keys _ vals => if member : token ∈ keys then some (vals ⟨token, member⟩) else none
  | arr items => (index token).bind fun i => items[i]?
  | _ => none

/-- The value at a path. -/
def get : List Str → Json → Option Json
  | [], json => some json
  | token :: path, json => (json.child token).bind (get path)

/-- The outermost form of a value. A value that is neither an array nor an object is its own
form. -/
inductive Shape where
  | leaf (json : Json)
  | arr (length : ℕ)
  | obj

def shape : Json → Shape
  | arr items => .arr items.length
  | obj _ _ _ => .obj
  | json => .leaf json

@[simp]
theorem get_nil (json : Json) : json.get [] = some json := rfl

@[simp]
theorem get_cons (token : Str) (path : List Str) (json : Json) :
    json.get (token :: path) = (json.child token).bind (get path) := rfl

@[simp]
theorem bind_get_nil (json : Option Json) : json.bind (get []) = json := by
  cases json <;> rfl

@[simp]
theorem bind_get_cons (token : Str) (path : List Str) (json : Option Json) :
    json.bind (get (token :: path)) = (json.bind (child token)).bind (get path) := by
  cases json <;> rfl

theorem get_append (path rest : List Str) (json : Json) :
    json.get (path ++ rest) = (json.get path).bind (get rest) := by
  induction path generalizing json with
  | nil => rfl
  | cons token path ih => cases child : json.child token <;> simp [child, ih]

@[simp]
theorem index_formatNat (n : ℕ) : index (Str.formatNat n) = some n := by
  simp [index]

theorem eq_formatNat_of_index {token : Str} {n : ℕ} (isIndex : index token = some n) :
    token = Str.formatNat n := by
  unfold index at isIndex
  cases parsed : Str.parseDigits token with
  | none => simp [parsed] at isIndex
  | some m =>
    simp only [parsed, Option.bind_some] at isIndex
    split_ifs at isIndex with same
    cases isIndex
    exact same.symm

@[simp]
theorem child_object (token : Str) (keys : List Str) (unique : keys.Nodup) (value : Str → Json) :
    (object keys unique value).child token = if token ∈ keys then some (value token) else none := by
  by_cases member : token ∈ keys <;> simp [object, child, member]

theorem child_arr (i : ℕ) (items : List Json) :
    (arr items).child (Str.formatNat i) = items[i]? := by
  simp [child]

theorem exists_of_shape_obj {json : Json} (isObject : json.shape = .obj) :
    ∃ keys unique vals, json = obj keys unique vals := by
  cases json with
  | obj keys unique vals => exact ⟨keys, unique, vals, rfl⟩
  | null => cases isObject
  | bool value => cases isObject
  | num text => cases isObject
  | str text => cases isObject
  | arr items => cases isObject

end Json

end Kiac
