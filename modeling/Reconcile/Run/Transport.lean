import Reconcile.Error
/-!
The write side of the account.  What a transport answers may depend on everything that happened
before, which is what its state stands for.
-/

namespace Reconcile

structure Transport (σ : Type) where
  connect : σ → Except SessionError Unit × σ
  send : String → σ → Except SessionError Unit × σ

namespace Transport

/-- The transport of runs that must not reach the remote. -/
def disconnected : Transport Unit where
  connect _ := (.error ⟨none, "no transport configured"⟩, ())
  send _ _ := (.error ⟨none, "no transport configured"⟩, ())

end Transport
end Reconcile
