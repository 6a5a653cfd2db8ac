import TwoBitAlpha.Decimal.Binary64

/-!
What a TOML document says, without the way in which it is written.
-/

namespace TwoBitAlpha.Toml

inductive Value where
  | text (s : String)
  | integer (n : Int)
  | float (x : Decimal.Binary64)
  | boolean (b : Bool)
  /-- A date, a time, or both, as it was spelled. -/
  | moment (spelling : String)
  | array (items : List Value)
  | table (entries : List (String × Value))

/-- Keys and their values, in the order in which the keys first appear. -/
abbrev Table := List (String × Value)

def Table.get? (t : Table) (key : String) : Option Value := t.lookup key

end TwoBitAlpha.Toml
