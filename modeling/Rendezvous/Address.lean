import Rendezvous.Text.Quoted

/-!
Addresses on a path. The server is `0x00`, the initiator `0x01`, and every other byte is a
responder.
-/

namespace Rendezvous

/-- The role that a client takes on its path during the handshake. -/
inductive Role where
  /-- The owner of the path. -/
  | initiator
  /-- One who joins the path of another. -/
  | responder
  deriving DecidableEq, Repr

/-- What an address can belong to. -/
inductive AddressKind where
  | server
  | initiator
  | responder
  deriving DecidableEq, Repr

/-- A one-byte address on a path. -/
structure Address where
  value : UInt8
  deriving DecidableEq, Repr

namespace Address

def server : Address := ⟨0x00⟩

def initiator : Address := ⟨0x01⟩

/-- The kind of an address. -/
def kind (a : Address) : AddressKind :=
  if a = server then .server else if a = initiator then .initiator else .responder

/-- Whether an address is one that a responder can have. -/
def isResponder (a : Address) : Bool :=
  2 ≤ a.value

def responders : List Address :=
  (List.range' 2 254).map fun n => ⟨UInt8.ofNat n⟩

/-- The address as `0x` and two digits. -/
def text (a : Address) : String :=
  (if a.value < 16 then "0x0" else "0x") ++ Text.hexadecimal a.value.toNat

/-- The address as it is shown in descriptions. -/
def describe (a : Address) : String :=
  "Address(" ++ a.text ++ ")"

theorem kind_eq_server {a : Address} : a.kind = .server ↔ a = .server := by
  unfold kind
  split
  · next h => exact ⟨fun _ => h, fun _ => rfl⟩
  · next h => split <;> exact ⟨nofun, fun heq => absurd heq h⟩

theorem isResponder_iff (a : Address) : a.isResponder = true ↔ a.kind = .responder := by
  have all : ∀ n : Fin 256, (Address.mk (UInt8.ofFin n)).isResponder = true ↔
      (Address.mk (UInt8.ofFin n)).kind = .responder := by decide +kernel
  exact all a.value.toFin

theorem mem_responders_iff (a : Address) : a ∈ responders ↔ a.isResponder = true := by
  simp only [responders, List.mem_map, List.mem_range'_1, isResponder, decide_eq_true_eq]
  constructor
  · rintro ⟨n, hn, rfl⟩
    rw [UInt8.le_iff_toNat_le]
    simp only [UInt8.toNat_ofNat']
    show 2 ≤ n % 2 ^ 8
    omega
  · intro h
    have h2 : 2 ≤ a.value.toNat := by simpa [UInt8.le_iff_toNat_le] using h
    have := a.value.toNat_lt
    exact ⟨a.value.toNat, by omega, by simp⟩

end Address

def Role.text : Role → String
  | .initiator => "initiator"
  | .responder => "responder"

/-- The kind of address that a client of a role has. -/
def Role.addressKind : Role → AddressKind
  | .initiator => .initiator
  | .responder => .responder

end Rendezvous
