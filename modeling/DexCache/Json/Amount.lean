import DexCache.Decimal.Amount
import DexCache.Json.Reader

/-!
# Amounts in JSON

An amount may be given as text, as a number or as a truth value.  A number is read
through its compact text, so a double is as long as its shortest form.
-/

namespace DexCache.Json

/-- The amount that a scalar denotes. -/
def amount? : Json → Option Amount
  | .str s => Amount.ofText? s
  | .int i => some (.ofInt i)
  | .float d => Amount.ofText? (Json.float d).body
  | .bool b => some (.ofInt (if b then 1 else 0))
  | _ => none

/-- Reads an amount that may be null. -/
def Reader.amount : Reader (Option Amount)
  | .null => .ok none
  | v =>
    match v.amount? with
    | some a => .ok (some a)
    | none => .error (.notDecimal v)

end DexCache.Json
