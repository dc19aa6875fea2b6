import Quorate.Account
import Quorate.Record.Scalar

/-!
# Accounts in value trees
-/

namespace Quorate.Account

def toValue (a : Account) : Value :=
  .map [("address", a.address.toValue), ("bls_public_key", a.publicKey.toValue),
    ("voting_power", a.power.toValue)]

end Quorate.Account
