/-!
Close codes: why a connection is ended, as the number and the short text in its close frame.
-/

namespace Rendezvous

/-- A reason to end a connection. -/
inductive CloseCode where
  /-- The connection served its purpose. -/
  | normal
  /-- The server stops. -/
  | goingAway
  /-- No subprotocol is shared. -/
  | subprotocolError
  /-- A message exceeds the size limit. -/
  | messageTooBig
  /-- The path has no free responder address. -/
  | pathFull
  /-- The other side broke the protocol. -/
  | protocolError
  /-- The server failed. -/
  | internalError
  /-- The connection was handed over to a direct channel. -/
  | handover
  /-- The initiator dropped the client. -/
  | dropByInitiator
  /-- The initiator could not open a message. -/
  | initiatorCouldNotDecrypt
  /-- No task is shared. -/
  | noSharedTasks
  /-- The requested permanent key is unknown. -/
  | invalidKey
  /-- The client took too long. -/
  | timeout
  deriving DecidableEq, Repr

namespace CloseCode

def all : List CloseCode :=
  [.normal, .goingAway, .subprotocolError, .messageTooBig, .pathFull, .protocolError,
    .internalError, .handover, .dropByInitiator, .initiatorCouldNotDecrypt, .noSharedTasks,
    .invalidKey, .timeout]

def code : CloseCode → UInt16
  | .normal => 1000
  | .goingAway => 1001
  | .subprotocolError => 1002
  | .messageTooBig => 1009
  | .pathFull => 3000
  | .protocolError => 3001
  | .internalError => 3002
  | .handover => 3003
  | .dropByInitiator => 3004
  | .initiatorCouldNotDecrypt => 3005
  | .noSharedTasks => 3006
  | .invalidKey => 3007
  | .timeout => 3008

/-- The close code with the given number. -/
def ofCode? (n : UInt16) : Option CloseCode :=
  all.find? fun c => c.code == n

/-- The codes that an initiator may give for dropping a responder. -/
def isDropReason : CloseCode → Bool
  | .protocolError | .internalError | .dropByInitiator | .initiatorCouldNotDecrypt => true
  | _ => false

/-- The text that goes with the number. -/
def reason : CloseCode → String
  | .normal => "normal closure"
  | .goingAway => "going away"
  | .subprotocolError => "no shared subprotocol"
  | .messageTooBig => "message too big"
  | .pathFull => "path full"
  | .protocolError => "protocol error"
  | .internalError => "internal error"
  | .handover => "handover"
  | .dropByInitiator => "dropped by initiator"
  | .initiatorCouldNotDecrypt => "initiator could not decrypt"
  | .noSharedTasks => "no shared tasks"
  | .invalidKey => "invalid key"
  | .timeout => "timeout"

def text (c : CloseCode) : String :=
  toString c.code.toNat ++ " (" ++ c.reason ++ ")"

theorem ofCode?_code (c : CloseCode) : ofCode? c.code = some c := by
  cases c <;> decide

theorem code_of_ofCode? {n : UInt16} {c : CloseCode} (h : ofCode? n = some c) : c.code = n := by
  simpa using List.find?_some h

theorem ofCode?_eq_some_iff {n : UInt16} {c : CloseCode} : ofCode? n = some c ↔ c.code = n :=
  ⟨code_of_ofCode?, fun h => h ▸ ofCode?_code c⟩

end CloseCode

end Rendezvous
