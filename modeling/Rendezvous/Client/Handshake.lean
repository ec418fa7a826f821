import Rendezvous.Client.Frames

/-!
The handshake of a client, as far as it needs no other client: the greeting, a responder's
introduction, and the proof of either role.
-/

namespace Rendezvous

/-- What a relay offers to its clients: subprotocols, most preferred first, and permanent keys, of
which the first is for clients that expect no particular one. -/
structure Service where
  subprotocols : List String
  permanentKeys : List KeyPair
  deriving DecidableEq

namespace Service

def speaks (s : Service) (subprotocol : String) : Bool :=
  s.subprotocols.contains subprotocol

/-- The first of the offered subprotocols that is spoken, with the blanks around each removed. -/
def negotiate (s : Service) (offered : List String) : Option String :=
  (offered.map Text.trim).find? s.speaks

def primaryKey? (s : Service) : Option KeyPair :=
  s.permanentKeys.head?

def findKey? (s : Service) (key : PublicKey) : Option KeyPair :=
  s.permanentKeys.find? fun pair => pair.publicKey.samePoint key

/-- The key pair that a client gets, by the key that it expects. -/
def keyFor (s : Service) : Option PublicKey → Except ProtocolError KeyPair
  | some key =>
    match s.findKey? key with
    | some pair => .ok pair
    | none => .error .invalidPermanentKey
  | none =>
    match s.primaryKey? with
    | some pair => .ok pair
    | none => .error .noPermanentKey

end Service

namespace Client

/-- The error of a message that does not belong into the client's stage. -/
def unexpected (c : Client) (t : MessageType) : ProtocolError :=
  .unexpectedMessage t c.stage

def greet (c : Client) : Except ProtocolError Client :=
  match c.phase with
  | .fresh => do
    let (frame, c) ← c.pack .server (.serverHello c.session.publicKey)
    return { c with phase := .greeted }.push (.binary frame)
  | _ => throw (c.unexpected .serverHello)

def introduce (c : Client) (key : PublicKey) : Except ProtocolError Client :=
  match c.phase with
  | .greeted => return { c with phase := .introduced key }
  | _ => throw (c.unexpected .clientHello)

/-- The role and key of a client that proves itself. -/
def claimed? (c : Client) : Option (Role × PublicKey) :=
  match c.phase with
  -- Who did not introduce itself can only have the key that names the path.
  | .greeted => some (.initiator, c.initiatorKey)
  | .introduced key => some (.responder, key)
  | _ => none

/-- Admits a client that proved itself: it has to repeat the server's cookie, and to expect a permanent
key that the relay has. -/
def authorize (c : Client) (service : Service) (auth : ClientAuth) : Except ProtocolError Client := do
  let (role, key) ← match c.claimed? with
    | some claim => pure claim
    | none => throw (c.unexpected .clientAuth)
  if auth.yourCookie ≠ c.cookie then throw .cookieNotEchoed
  -- The first one on the client's list that the relay speaks has to be the one agreed upon before.
  if auth.subprotocols.find? service.speaks ≠ some c.subprotocol then throw .subprotocolMismatch
  let permanent ← service.keyFor auth.yourKey
  return { c with phase := .admitted ⟨role, key, permanent, auth.pingInterval⟩ }

end Client

end Rendezvous
