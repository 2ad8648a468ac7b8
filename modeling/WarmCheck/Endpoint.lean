import WarmCheck.Disk.Change
import WarmCheck.Failure

/-!
# The endpoint

The socket at which a daemon answers.

* `Endpoint.listen`: a listener at the endpoint that only its owner can reach.
* `Endpoint.release`: the endpoint taken away.
-/

namespace WarmCheck.Endpoint

/-- The mode of the endpoint: nobody but its owner may connect. -/
def ownerOnly : Nat := 0o600

/-- Listen at a path, with what may go wrong. -/
def listen (d : Disk) (socket : Path) (listener : Nat) : Disk × Except Failure Unit :=
  match d.bindSocket socket listener with
  | .error e => (d, .error (.bind socket e))
  | .ok d =>
    match d.setMode socket ownerOnly with
    | .error e => (d, .error (.io socket e))
    | .ok d => (d, .ok ())

/-- The mode of what a path leads to. -/
def mode? (d : Disk) (p : Path) : Option Nat := ((d.lookup true p).map Node.mode).toOption

/-- Take the endpoint away. What cannot be taken away stays. -/
def release (d : Disk) (socket : Path) : Disk :=
  match d.remove socket with
  | .ok d => d
  | .error _ => d

end WarmCheck.Endpoint
