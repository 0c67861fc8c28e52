import Downlink.Binary64.Basic
import Downlink.Table

/-!
JSON values. The members of an object are a table, in the order of their names by code point.
-/
namespace Downlink

/-- Numbers written without fraction and exponent are integers where 64 bits hold them; all others
are binary floating point. -/
inductive Json where
  | null
  | bool (value : Bool)
  | int (value : Int)
  | float (value : Binary64)
  | str (text : String)
  | arr (items : List Json)
  | obj (members : List (String × Json))
  deriving Repr, Inhabited

namespace Json

inductive Defect where
  | grammar
  | shape
  deriving DecidableEq, Repr

def text? : Json → Option String
  | .str text => some text
  | _ => none

/-- An integer from 0 up to, but not including, `bound`. A number with a fraction or an exponent is
no integer. -/
def natBelow? (bound : Nat) : Json → Option Nat
  | .int n => if 0 ≤ n ∧ n < bound then some n.toNat else none
  | _ => none

end Json
end Downlink
