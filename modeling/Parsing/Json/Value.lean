import Parsing.Binary64

/-!
# JSON values

A number is a whole number of 64 bits or a floating-point number. The members of an object are in the
order of their keys, each key once. A member carries the evidence that its key comes after the one
before it, so there are no objects with keys out of order or with a key twice. The last value given to
a key is the one that stays.
-/

namespace Parsing.Json

/-- A number of a document. -/
inductive Number where
  | integer (value : Int64)
  | float (value : Binary64)
  deriving Repr, DecidableEq, Inhabited

mutual

/-- A value of a document. -/
inductive Value where
  | null
  | bool (value : Bool)
  | number (value : Number)
  | string (text : String)
  | array (items : List Value)
  | object (members : MembersAfter none)

/-- Members in the order of their keys, which all come after a bound, if there is one. -/
inductive MembersAfter : Option String → Type where
  | nil {bound : Option String} : MembersAfter bound
  | cons {bound : Option String} (key : String) (value : Value) (later : MembersAfter (some key))
      (h : bound < some key) : MembersAfter bound

end

instance : Inhabited Value := ⟨.null⟩

/-- The members of an object. -/
abbrev Members := MembersAfter none

namespace MembersAfter

/-- The keys and their values. -/
def entries {bound : Option String} : MembersAfter bound → List (String × Value)
  | nil => []
  | cons key value later _ => (key, value) :: later.entries

/-- A key that is not before another one and differs from it comes after it. -/
theorem some_lt_some_of_not_lt_of_ne {key other : String} (hlt : ¬key < other) (hne : ¬key = other) :
    some other < some key :=
  String.not_le.1 fun hle => hne (String.le_antisymm hle (String.not_lt.1 hlt))

/-- Give a value to a key that comes after the bound. -/
def insert {bound : Option String} (key : String) (value : Value) (h : bound < some key) :
    MembersAfter bound → MembersAfter bound
  | nil => cons key value nil h
  | cons other kept later hother =>
    if hlt : key < other then cons key value (cons other kept later hlt) h
    else if heq : key = other then cons other value later hother
    else cons other kept (insert key value (some_lt_some_of_not_lt_of_ne hlt heq) later) hother

end MembersAfter

namespace Members

/-- Give a value to a key. -/
def insert (key : String) (value : Value) (members : Members) : Members :=
  MembersAfter.insert key value Option.none_lt_some members

/-- The members given one after the other. -/
def ofList (entries : List (String × Value)) : Members :=
  entries.foldl (fun members entry => insert entry.1 entry.2 members) .nil

end Members

/-- Equality of numbers: whole numbers are never equal to floating-point numbers. -/
def Number.equal : Number → Number → Bool
  | integer a, integer b => a == b
  | float a, float b => a.equal b
  | _, _ => false

namespace Value

mutual

/-- Equality of values, with floating-point numbers compared by value. -/
def equal : Value → Value → Bool
  | null, null => true
  | bool a, bool b => a == b
  | number a, number b => a.equal b
  | string a, string b => a == b
  | array a, array b => equalItems a b
  | object a, object b => equalMembers a b
  | _, _ => false

/-- Equality item by item. -/
def equalItems : List Value → List Value → Bool
  | [], [] => true
  | a :: as, b :: bs => equal a b && equalItems as bs
  | _, _ => false

/-- Equality key by key and value by value. -/
def equalMembers {bound other : Option String} : MembersAfter bound → MembersAfter other → Bool
  | .nil, .nil => true
  | .cons j a as _, .cons k b bs _ => j == k && equal a b && equalMembers as bs
  | _, _ => false

end

end Value

end Parsing.Json
