import GoP2P.Bytes

/-!
# Errors of the core packages

`coreerr.E(op, msg, cause)` names the failing operation, gives a message and
may wrap another error; `core.Errorf` and `core.NewError` carry a message only.
The two errors of `io` that reach a modelled caller are listed as themselves.
-/

namespace GoP2P

inductive CoreError where
  | op (operation : String) (message : Bytes)
  | wrap (operation : String) (message : Bytes) (cause : CoreError)
  | plain (message : Bytes)
  | formatted (message : Bytes) (cause : CoreError)
  | eof
  | unexpectedEOF
  deriving DecidableEq, Repr

end GoP2P
