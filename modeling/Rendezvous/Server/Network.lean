import Rendezvous.Server.ListenAddress

/-!
What the network of a machine allows to the programs on it.
-/

namespace Rendezvous

/-- On which addresses a program can listen, and to which of them another program on the machine can
connect. -/
structure Network where
  listens : ListenAddress → Bool
  connects : ListenAddress → Bool

namespace Network

/-- The network of a machine whose programs reach each other. -/
def loopback : Network := ⟨ListenAddress.isLocal, ListenAddress.isLocal⟩

/-- The network of a machine all of whose interfaces are down, also the one to itself. As there is no
telling then which addresses of version 4 are its own a program can listen on each of them, but
programs reach nobody. -/
def isolated : Network := ⟨ListenAddress.isVersion4, fun _ => false⟩

end Network

end Rendezvous
