/-!
# Natural numbers in text
-/

namespace TagTree.Text

def ofDigits (ds : List Char) : Nat := ds.foldl (fun n d => n * 10 + (d.toNat - '0'.toNat)) 0

/-- the number written by at least one digit, before which a plus may stand -/
def natural? (cs : List Char) : Option Nat :=
  let ds := match cs with
    | '+' :: ds => ds
    | ds => ds
  if ds.isEmpty || !ds.all Char.isDigit then none else some (ofDigits ds)

end TagTree.Text
