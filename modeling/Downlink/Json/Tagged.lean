import Downlink.Json.Basic

/-!
Tagged values: an object whose member `type` names a variant, with the variant's fields beside it,
or an array of the tag and exactly the fields in their order.
-/
namespace Downlink.Json

/-- Which tags are read: at the top of a value only names, below it also positions in the list of
variants. -/
inductive TagForm where
  | named
  | namedOrNumbered
  deriving DecidableEq, Repr

def variant? {V : Type} (form : TagForm) (variants : List (String × V)) : Json → Option V
  | .str name => Table.get? name variants
  | .int n =>
    if form = .namedOrNumbered ∧ 0 ≤ n then (variants[n.toNat]?).map (·.2) else none
  | _ => none

def memberVariant? {V : Type} (form : TagForm) (variants : List (String × V))
    (members : List (String × Json)) : Option V :=
  (Table.get? "type" members).bind (variant? form variants)

end Downlink.Json
