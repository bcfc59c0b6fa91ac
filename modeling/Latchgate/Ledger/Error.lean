import Latchgate.Core.Canonical

namespace Latchgate

inductive SqlError where
  | constraintViolation (message : String)
  | failure (message : String)
  deriving DecidableEq

inductive LedgerError where
  | sqlite (error : SqlError)
  | serialization (message : String)
  | io (message : String)
  | lockPoisoned
  | anotherWriterActive
  | grantAlreadyConsumed (grantId : String)
  | canonicalization (error : CanonicalError)
  deriving DecidableEq

end Latchgate
