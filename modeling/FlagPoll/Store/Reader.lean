import FlagPoll.Snapshot
import FlagPoll.Sorting.Runs
import FlagPoll.Text.Quoted

/-!
# FlagPoll.Store.Reader

Readers: what the caller of a read does with what the store hands over.

* `Reader.answer` — what a reader makes of a value, or why it gives up. A reader that asks a value
  for something that it does not have gives up.
* `below`         — the order of items, where they can be compared.
-/

namespace FlagPoll.Store

open Json (Value Members)

/-- What the caller of a read does with what it is handed. -/
inductive Reader where
  | identity
  | version
  | isNone
  | keys
  | count
  | clear
  | refuse
  deriving DecidableEq, Repr

inductive Shape where
  | nothing
  | truth
  | integer
  | float
  | text
  | list
  | object
  deriving DecidableEq, Repr

namespace Shape

def name : Shape → String
  | .nothing => "NoneType"
  | .truth => "bool"
  | .integer => "int"
  | .float => "float"
  | .text => "str"
  | .list => "list"
  | .object => "dict"

def of : Value → Shape
  | .null => .nothing
  | .bool _ => .truth
  | .int _ => .integer
  | .float _ => .float
  | .string _ => .text
  | .array _ => .list
  | .object _ => .object

end Shape

namespace Reader

inductive Fault where
  | refused
  | noMember (name : String)
  | noMembers (shape : Shape)
  | noItems (shape : Shape)
  | noSize (shape : Shape)
  | noOrder (left right : Shape)
  | notEmptied (shape : Shape)
  deriving DecidableEq, Repr

def Fault.message : Fault → String
  | .refused => "callback failed"
  | .noMember name => String.ofList (Quoted.encode name.toList)
  | .noMembers .list => "list indices must be integers or slices, not str"
  | .noMembers .text => "string indices must be integers, not 'str'"
  | .noMembers shape => s!"'{shape.name}' object is not subscriptable"
  | .noItems shape => s!"'{shape.name}' object is not iterable"
  | .noSize shape => s!"object of type '{shape.name}' has no len()"
  | .noOrder left right =>
    s!"'<' not supported between instances of '{left.name}' and '{right.name}'"
  | .notEmptied shape => s!"'{shape.name}' object has no attribute 'clear'"

mutual

/-- Whether a value is below another: numbers by value, texts and lists by their first difference,
and nothing else. -/
def below : Value → Value → Except Fault Bool
  | .string a, .string b => .ok (a.lt b)
  | .array a, .array b => belowItems a b
  | a, b =>
    match a.number?, b.number? with
    | some x, some y => .ok (x.lt y)
    | _, _ => .error (.noOrder (.of a) (.of b))

def belowItems : List Value → List Value → Except Fault Bool
  | [], [] => .ok false
  | [], _ :: _ => .ok true
  | _ :: _, [] => .ok false
  | v :: r, w :: s => if v.same w then belowItems r s else below v w

end

/-- What a value consists of: an object's names, a list's items, a text's characters. -/
def items : Value → Except Fault (List Value)
  | .object ms => .ok (ms.map fun m => .string m.1)
  | .array vs => .ok vs
  | .string s => .ok (s.singletons.map .string)
  | v => .error (.noItems (.of v))

def size : Value → Except Fault Nat
  | .object ms => .ok ms.length
  | .array vs => .ok vs.length
  | .string s => .ok s.length
  | v => .error (.noSize (.of v))

def member (name : String) : Value → Except Fault Value
  | .object ms =>
    match Members.get? ms name with
    | some v => .ok v
    | none => .error (.noMember name)
  | v => .error (.noMembers (.of v))

def answer (r : Reader) (handed : Value) : Except Fault Value :=
  match r with
  | .identity => .ok handed
  | .version => member "version" handed
  | .isNone => .ok (.bool handed.isNull)
  | .keys => do return .array (← Sorting.sort below (← items handed))
  | .count => do return .int (← size handed)
  | .clear =>
    match handed with
    | .object _ | .array _ => .ok .null
    | v => .error (.notEmptied (.of v))
  | .refuse => .error .refused

end Reader
end FlagPoll.Store
