import Rendezvous.Digest.Sha1
import Rendezvous.Text.Base64
import Rendezvous.Upgrade

/-!
The opening of a WebSocket connection: the request of a client, and the server's answer to it. Main
statement: once the head of a request is there, nothing that arrives behind it changes it
(`splitHead?_append`).
-/

namespace Rendezvous.WebSocket

/-- The end of a line. -/
def lineEnd : Bytes := [0x0d, 0x0a]

/-- The head of a request: its method, target and version, and its headers, with names in lower case. -/
structure RequestHead where
  method : Bytes
  target : Bytes
  version : Bytes
  headers : List (Bytes × Bytes)
  deriving DecidableEq

/-- The lines before the first empty line, each without its end, and what follows that line. The line
that was begun is given in reverse, and so are the lines before it. -/
def linesFrom (lines : List Bytes) (line : Bytes) : Bytes → Option (List Bytes × Bytes)
  | 0x0d :: 0x0a :: rest =>
    if line = [] then some (lines.reverse, rest) else linesFrom (line.reverse :: lines) [] rest
  | b :: rest => linesFrom lines (b :: line) rest
  | [] => none

/-- The lines of a head and what follows it, once all of the head is there. -/
def splitHead? (bytes : Bytes) : Option (List Bytes × Bytes) :=
  linesFrom [] [] bytes

/-- The bytes in lower case, as far as they are letters of ASCII. -/
def lower (bytes : Bytes) : Bytes :=
  bytes.map fun b => if 0x41 ≤ b ∧ b ≤ 0x5a then b + 0x20 else b

def isSpace (b : UInt8) : Bool :=
  b == 0x20 || b == 0x09

/-- The bytes without spaces at either end. -/
def strip (bytes : Bytes) : Bytes :=
  ((bytes.dropWhile isSpace).reverse.dropWhile isSpace).reverse

/-- A header: a name, a colon and a value. -/
def header? (line : Bytes) : Option (Bytes × Bytes) :=
  let (name, rest) := line.span (· != 0x3a)
  match rest with
  | _ :: value => some (lower name, strip value)
  | [] => none

namespace RequestHead

def ofLines? : List Bytes → Option RequestHead
  | first :: headers => do
    let (method, rest) := first.span (· != 0x20)
    let (target, rest) := rest.tail.span (· != 0x20)
    return ⟨method, target, rest.tail, ← headers.mapM header?⟩
  | [] => none

/-- The value of the first header of a name. -/
def header (h : RequestHead) (name : String) : Option Bytes :=
  h.headers.lookup (Text.utf8 name)

/-- The values of all headers of a name. -/
def allHeaders (h : RequestHead) (name : String) : List Bytes :=
  (h.headers.filter fun (n, _) => n == Text.utf8 name).map Prod.snd

/-- The parts of a list of words, which are set off by spaces and commas. -/
def wordsOf (value : Bytes) : List Bytes :=
  value.foldr (fun b parts =>
    if b = 0x20 ∨ b = 0x2c then [] :: parts
    else match parts with
      | [] => [[b]]
      | first :: rest => (b :: first) :: rest) [[]]

/-- The key of a request that asks for a WebSocket connection. -/
def key? (h : RequestHead) : Option Bytes :=
  let upgrading := (h.header "connection").any fun v =>
    (wordsOf v).any fun w => lower w == Text.utf8 "upgrade"
  let toWebSocket := (h.header "upgrade").any fun v => lower v == Text.utf8 "websocket"
  let known := h.header "sec-websocket-version" == some (Text.utf8 "13")
  if h.method = Text.utf8 "GET" ∧ h.version = Text.utf8 "HTTP/1.1" ∧ upgrading ∧ toWebSocket ∧ known
  then h.header "sec-websocket-key"
  else none

/-- The request as far as the server decides on it. -/
def request (h : RequestHead) : UpgradeRequest where
  target := (Text.ofUtf8? h.target).getD ""
  protocols := h.allHeaders "sec-websocket-protocol"

end RequestHead

/-- What is put behind a client's key before the digest is taken. -/
def keySuffix : String := "258EAFA5-E914-47DA-95CA-C5AB0DC85B11"

/-- The proof that the server understood a request with the given key. -/
def acceptance (key : Bytes) : String :=
  Text.base64 (Sha1.digest (key ++ Text.utf8 keySuffix))

/-- Lines with an empty line behind them. -/
def headBytes (lines : List String) : Bytes :=
  lines.flatMap (fun l => Text.utf8 l ++ lineEnd) ++ lineEnd

/-- The answer to a request that is upgraded. -/
def upgradedAnswer (key : Bytes) (subprotocol : Option String) : Bytes :=
  headBytes (["HTTP/1.1 101 Switching Protocols", "connection: Upgrade", "upgrade: websocket",
    "sec-websocket-accept: " ++ acceptance key] ++
      subprotocol.toList.map ("sec-websocket-protocol: " ++ ·))

/-- The answer to a request that is rejected. -/
def rejectedAnswer : Bytes :=
  headBytes ["HTTP/1.1 400 Bad Request"] ++ Text.utf8 Upgrade.rejectedBody

/-! ### Where a head ends -/

theorem linesFrom_append {lines : List Bytes} {line bytes : Bytes} {result : List Bytes × Bytes}
    (h : linesFrom lines line bytes = some result) (more : Bytes) :
    linesFrom lines line (bytes ++ more) = some (result.1, result.2 ++ more) := by
  fun_induction linesFrom lines line bytes with
  | case1 lines rest =>
    cases h
    simp [linesFrom]
  | case2 lines line rest hline ih => simp [linesFrom, hline, ih h]
  | case3 lines line b rest hne ih =>
    have step : linesFrom lines line (b :: (rest ++ more)) =
        linesFrom lines (b :: line) (rest ++ more) := by
      rw [linesFrom]
      rintro tail rfl htail
      cases rest with
      | nil => simp [linesFrom] at h
      | cons c cs =>
        cases htail
        exact hne cs rfl rfl
    rw [List.cons_append, step, ih h]
  | case4 => contradiction

/-- What arrives behind a head does not change it. -/
theorem splitHead?_append {bytes : Bytes} {result : List Bytes × Bytes}
    (h : splitHead? bytes = some result) (more : Bytes) :
    splitHead? (bytes ++ more) = some (result.1, result.2 ++ more) :=
  linesFrom_append h more

end Rendezvous.WebSocket
