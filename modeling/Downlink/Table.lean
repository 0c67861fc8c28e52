/-!
Tables: one row per key, in the order of the keys.
-/
namespace Downlink

abbrev Table (K V : Type) := List (K × V)

namespace Table

variable {K V : Type}

def get? [DecidableEq K] (key : K) : Table K V → Option V
  | [] => none
  | (k, v) :: rows => if k = key then some v else get? key rows

def insert [LT K] [DecidableLT K] (key : K) (value : V) : Table K V → Table K V
  | [] => [(key, value)]
  | (k, v) :: rows =>
    if key < k then (key, value) :: (k, v) :: rows
    else if k < key then (k, v) :: insert key value rows
    else (key, value) :: rows

def erase [DecidableEq K] (key : K) (table : Table K V) : Table K V :=
  table.filter fun row => row.1 ≠ key

/-- Inserts all rows in turn, so that of two with one key the later stays. -/
def insertAll [LT K] [DecidableLT K] (rows : List (K × V)) (table : Table K V) : Table K V :=
  rows.foldl (fun table row => insert row.1 row.2 table) table

def Sorted [LT K] (table : Table K V) : Prop := table.Pairwise fun a b => a.1 < b.1

end Table
end Downlink
